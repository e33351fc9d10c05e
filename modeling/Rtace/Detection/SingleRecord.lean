import Rtace.Detection.Batching

/-!
# One record

What `handle_batch` computes for a single transaction or login: the candidates before the cooldown, and
the keys it leaves outside the cooldown.
-/

namespace Rtace

open Lib Redis

/-- A record that `handle_batch` accepts as a transaction. -/
structure TxRecord (rt : Runtime) (kafka : KafkaConfig) where
  record : DecodedRecord
  tx : TransactionEvent
  topic_ne : record.topic ≠ kafka.authEventsTopic
  valid : rt.validateTx record.value = some tx

def TxRecord.ref {rt : Runtime} {kafka : KafkaConfig} (r : TxRecord rt kafka) : String := r.record.ref

/-- The candidates `_run` computes for a list of items, with their stable ids. -/
def candidates (rt : Runtime) (cfg : RedisConfig) (now : ℕ) (items : List Item) (db : Db) :
    Except PyError (List DetectionEvent) :=
  (analyse rt cfg now items db).1.2.map (collectCandidates rt)

/-- The candidates `handle_batch` computes for one record. -/
def recordCandidates (rt : Runtime) (kafka : KafkaConfig) (cfg : RedisConfig) (now : ℕ)
    (r : DecodedRecord) (db : Db) : Except PyError (List DetectionEvent) :=
  candidates rt cfg now (validateRecords rt kafka 0 [r]).1 db

/-- The findings of a script reply that is not prescored. -/
def findings (cfg : RedisConfig) (tx : TransactionEvent) (r : TxReply) : List DetectionEvent :=
  [replayInterpret tx r.replayStatus r.storedRef, geoInterpret cfg tx r,
    burstInterpret cfg tx r.burstCount].filterMap id

/-- The analysis of one transaction: its findings before they get their ids, and the keyspace. -/
def scanTx (rt : Runtime) (cfg : RedisConfig) (now : ℕ) (tx : TransactionEvent) (ref : String) :
    Cmd (Except PyError (List DetectionEvent)) := fun db =>
  if (db (quarantineKey tx.userId)).isSome then (.ok [], db)
  else
    match tx.timestamp.timestamp rt with
    | .error e => (.error e, db)
    | .ok ts =>
        let out := txCheck rt now (txKeys rt tx) (txArgs cfg tx ref ts) db
        (if out.1.replayStatus = .prescored then
            detectionsFromDecision tx (payload (out.2 (resultKey tx.eventId)))
          else .ok (findings cfg tx out.1), out.2)

theorem txKeys_distinct (rt : Runtime) (tx : TransactionEvent) : (txKeys rt tx).Distinct where
  replay_burst := append_ne_of_incomparable (p := replayKeyPrefix) (q := burstKeyPrefix) (by decide) _ _
  replay_session := append_ne_of_incomparable (p := replayKeyPrefix) (q := sessionKeyPrefix) (by decide) _ _
  burst_session := append_ne_of_incomparable (p := burstKeyPrefix) (q := sessionKeyPrefix) (by decide) _ _

theorem validateRecords_tx {rt : Runtime} {kafka : KafkaConfig} (r : TxRecord rt kafka) :
    validateRecords rt kafka 0 [r.record] = ([{ event := .tx r.tx, ref := r.ref }], []) := by
  simp [validateRecords, r.topic_ne, r.valid, TxRecord.ref]

/-- Phases A to C on one transaction. -/
theorem analyse_tx (rt : Runtime) (cfg : RedisConfig) (now : ℕ) (tx : TransactionEvent) (ref : String)
    (db : Db) :
    (analyse rt cfg now [{ event := .tx tx, ref := ref }] db).2 = (scanTx rt cfg now tx ref db).2 ∧
      candidates rt cfg now [{ event := .tx tx, ref := ref }] db
        = (scanTx rt cfg now tx ref db).1.map (List.map (assignStableId rt ref)) := by
  have hflag : mark db { event := .tx tx, ref := ref } =
      { event := .tx tx, ref := ref, blocked := (db (quarantineKey tx.userId)).isSome } := by
    unfold mark Event.enforcementKey
    cases (db (quarantineKey tx.userId)).isSome with
    | false => rfl
    | true => rfl
  simp only [candidates, analyse, bind_apply, enforcePhase_apply, List.map_cons, List.map_nil, hflag, scanTx]
  cases (db (quarantineKey tx.userId)).isSome with
  | true => exact ⟨rfl, rfl⟩
  | false =>
      have hactive : Item.active { event := .tx tx, ref := ref, blocked := false } = true := rfl
      simp only [List.filter_cons_of_pos hactive, List.filter_nil, Bool.false_eq_true, if_false,
        List.mapM_cons, List.mapM_nil, queueCheck]
      rcases tx.timestamp.timestamp rt with e | ts
      · exact ⟨rfl, rfl⟩
      set out := txCheck rt now (txKeys rt tx) (txArgs cfg tx ref ts) db
      change (decisionFetch [interpretItem cfg { event := .tx tx, ref := ref, result := some (.tx out.1) }]
          out.2).2 = out.2 ∧
        (assignDecisions [interpretItem cfg { event := .tx tx, ref := ref, result := some (.tx out.1) }]
          (decisionFetch [interpretItem cfg { event := .tx tx, ref := ref, result := some (.tx out.1) }]
            out.2).1).map (collectCandidates rt) =
        (if out.1.replayStatus = .prescored then
            detectionsFromDecision tx (payload (out.2 (resultKey tx.eventId)))
          else .ok (findings cfg tx out.1)).map (List.map (assignStableId rt ref))
      simp only [decisionFetch_apply, true_and]
      by_cases hpre : out.1.replayStatus = .prescored
      · simp only [interpretItem, hpre, if_true, Item.prescored, Bool.decide_true, List.filter_cons_of_pos,
          List.filter_nil, List.map_cons, List.map_nil, assignDecisions, Event.eventId]
        rcases detectionsFromDecision tx (payload (out.2 (resultKey tx.eventId))) with e | found
        · rfl
        · simp [collectCandidates, Except.bind, Except.map]
      · simp [interpretItem, hpre, Item.prescored, assignDecisions, collectCandidates, findings, Except.map]

/-- The analysis of one login. -/
def scanAuth (rt : Runtime) (cfg : RedisConfig) (now : ℕ) (a : AuthEvent) :
    Cmd (Except PyError (List DetectionEvent)) := fun db =>
  if (db (ipBlockKey a.ipAddress)).isSome ∨ a.success then (.ok [], db)
  else
    match a.timestamp.timestamp rt with
    | .error e => (.error e, db)
    | .ok ts =>
        let out := authCheck now (userFailKey a.userId) (ipFailKey a.ipAddress) a.eventId ts
          (ts - cfg.authFailWindowSeconds) cfg.authFailKeyTtlSeconds db
        (.ok ([(stuffingInterpret cfg a out.1.1 out.1.2).1,
          (stuffingInterpret cfg a out.1.1 out.1.2).2].filterMap id), out.2)

/-- Phases A to C on one login. -/
theorem analyse_auth (rt : Runtime) (cfg : RedisConfig) (now : ℕ) (a : AuthEvent) (ref : String) (db : Db) :
    (analyse rt cfg now [{ event := .auth a, ref := ref }] db).2 = (scanAuth rt cfg now a db).2 ∧
      candidates rt cfg now [{ event := .auth a, ref := ref }] db
        = (scanAuth rt cfg now a db).1.map (List.map (assignStableId rt ref)) := by
  have hflag : mark db { event := .auth a, ref := ref } =
      { event := .auth a, ref := ref, blocked := (db (ipBlockKey a.ipAddress)).isSome } := by
    unfold mark Event.enforcementKey
    cases (db (ipBlockKey a.ipAddress)).isSome with
    | false => rfl
    | true => rfl
  simp only [candidates, analyse, bind_apply, enforcePhase_apply, List.map_cons, List.map_nil, hflag, scanAuth]
  cases (db (ipBlockKey a.ipAddress)).isSome with
  | true => exact ⟨rfl, rfl⟩
  | false =>
      -- only a failed login is active
      obtain ⟨eventId, userId, ip, _ | _, timestamp⟩ := a
      · rw [List.filter_cons_of_pos rfl]
        simp only [List.filter_nil, Bool.false_eq_true, or_self, if_false, List.mapM_cons, List.mapM_nil,
          queueCheck]
        rcases timestamp.timestamp rt with e | ts
        · exact ⟨rfl, rfl⟩
        · set out := authCheck now (userFailKey userId) (ipFailKey ip) eventId ts
            (ts - cfg.authFailWindowSeconds) cfg.authFailKeyTtlSeconds db
          refine ⟨rfl, ?_⟩
          change Except.ok (_ ++ []) = _
          rw [List.append_nil]
          rfl
      · exact ⟨rfl, rfl⟩

/-- The candidates of a transaction record are its findings with their stable ids. -/
theorem recordCandidates_tx {rt : Runtime} {kafka : KafkaConfig} (cfg : RedisConfig) (now : ℕ)
    (r : TxRecord rt kafka) (db : Db) :
    recordCandidates rt kafka cfg now r.record db
      = (scanTx rt cfg now r.tx r.ref db).1.map (List.map (assignStableId rt r.ref)) := by
  rw [recordCandidates, validateRecords_tx, (analyse_tx rt cfg now r.tx r.ref db).2]

/-- Outside the cooldown keys, handling a transaction record leaves what its analysis leaves. -/
theorem handleBatch_tx_frame {rt : Runtime} {kafka : KafkaConfig} (cfg : RedisConfig) (now : ℕ)
    (r : TxRecord rt kafka) (db : Db) {k : String} (hk : k ∉ cooldownKeys) :
    (handleBatch rt kafka cfg now [r.record] db).2 k = (scanTx rt cfg now r.tx r.ref db).2 k := by
  simp only [handleBatch, validateRecords_tx, runItems, List.isEmpty_cons, Bool.false_eq_true, if_false,
    bind_apply, pure_apply, ← (analyse_tx rt cfg now r.tx r.ref db).1]
  rcases analyse rt cfg now [{ event := .tx r.tx, ref := r.ref }] db with ⟨⟨audits, _ | items⟩, db'⟩
  · rfl
  · simp only [bind_apply, pure_apply]
    exact (footprint_filterCooledDown cfg now _).frame _ _ hk

/-- The analysis of a transaction whose user is free. -/
theorem scanTx_free {rt : Runtime} (cfg : RedisConfig) (now : ℕ) {tx : TransactionEvent} (ref : String)
    {db : Db} {ts : ℚ} (hts : tx.timestamp.timestamp rt = .ok ts)
    (hfree : db (quarantineKey tx.userId) = none) :
    scanTx rt cfg now tx ref db =
      let out := txCheck rt now (txKeys rt tx) (txArgs cfg tx ref ts) db
      (if out.1.replayStatus = .prescored then
          detectionsFromDecision tx (payload (out.2 (resultKey tx.eventId)))
        else .ok (findings cfg tx out.1), out.2) := by
  simp only [scanTx, hfree, Option.isSome_none, Bool.false_eq_true, if_false, hts]

/-- The analysis of a transaction changes the keys of its script only. -/
theorem scanTx_script_frame (rt : Runtime) (cfg : RedisConfig) (now : ℕ) (tx : TransactionEvent) (ref : String)
    (db : Db) {k : String}
    (hk : k ∉ ({(txKeys rt tx).replay, (txKeys rt tx).burst, (txKeys rt tx).session} : Set String)) :
    (scanTx rt cfg now tx ref db).2 k = db k := by
  unfold scanTx
  split
  · rfl
  · split
    · rfl
    · exact (footprint_txCheck _ _ _ _).frame _ _ hk

theorem scanTx_frame (rt : Runtime) (cfg : RedisConfig) (now : ℕ) (tx : TransactionEvent) (ref : String)
    (db : Db) {k : String} (hk : k ∉ detectionKeys) : (scanTx rt cfg now tx ref db).2 k = db k :=
  scanTx_script_frame rt cfg now tx ref db fun h => hk (txKeys_subset rt tx h)

/-- The analysis of a transaction reads the rule and the stored decision besides its script keys. -/
theorem footprint_scanTx {S : Set String} (rt : Runtime) (cfg : RedisConfig) (now : ℕ) (tx : TransactionEvent)
    (ref : String) (hrule : quarantineKey tx.userId ∈ S) (hresult : resultKey tx.eventId ∈ S)
    (hkeys : ({(txKeys rt tx).replay, (txKeys rt tx).burst, (txKeys rt tx).session} : Set String) ⊆ S) :
    Footprint S (scanTx rt cfg now tx ref) where
  frame s k hk := scanTx_script_frame rt cfg now tx ref s fun h => hk (hkeys h)
  congr s t h := by
    simp only [scanTx, h _ hrule]
    split
    · exact ⟨rfl, h⟩
    cases tx.timestamp.timestamp rt with
    | error e => exact ⟨rfl, h⟩
    | ok ts =>
        obtain ⟨hreply, hcells⟩ := ((footprint_txCheck rt now (txKeys rt tx) (txArgs cfg tx ref ts)).mono
          hkeys).congr s t h
        simp only [hreply, hcells _ hresult, true_and]
        exact hcells

/-- The check of a transaction leaves the replay keys of other payloads alone. -/
theorem txCheck_replay_frame {rt : Runtime} {tx : TransactionEvent} {hash : String}
    (h : replayKey hash ≠ (txKeys rt tx).replay) (now : ℕ) (a : TxArgs) (db : Db) :
    (txCheck rt now (txKeys rt tx) a db).2 (replayKey hash) = db (replayKey hash) := by
  refine (footprint_txCheck _ _ _ _).frame _ _ ?_
  rintro (hkey | hkey | hkey)
  · exact h hkey
  · exact append_ne_of_incomparable (p := replayKeyPrefix) (q := burstKeyPrefix) (by decide) _ _ hkey
  · exact append_ne_of_incomparable (p := replayKeyPrefix) (q := sessionKeyPrefix) (by decide) _ _ hkey

/-- The analysis of a login changes its two windows only. -/
theorem scanAuth_frame (rt : Runtime) (cfg : RedisConfig) (now : ℕ) (a : AuthEvent) (db : Db) {k : String}
    (hk : k ∉ ({userFailKey a.userId, ipFailKey a.ipAddress} : Set String)) :
    (scanAuth rt cfg now a db).2 k = db k := by
  simp only [scanAuth]
  split
  · rfl
  split
  · rfl
  · exact (footprint_authCheck _ _ _ _ _ _ _).frame _ _ hk

theorem replayKey_notMem_failKeys (hash : String) (a : AuthEvent) :
    replayKey hash ∉ ({userFailKey a.userId, ipFailKey a.ipAddress} : Set String) := by
  rintro (hkey | hkey)
  · exact append_ne_of_incomparable (p := replayKeyPrefix) (q := userFailKeyPrefix) (by decide) _ _ hkey
  · exact append_ne_of_incomparable (p := replayKeyPrefix) (q := ipFailKeyPrefix) (by decide) _ _ hkey

theorem quarantineKey_notMem_detectionKeys (userId : String) : quarantineKey userId ∉ detectionKeys :=
  Set.disjoint_right.mp detectionKeys_disjoint_readOnlyKeys (mem_keyFamilies (by simp) _)

theorem quarantineKey_notMem_cooldownKeys (userId : String) : quarantineKey userId ∉ cooldownKeys :=
  Set.disjoint_left.mp cooldownKeys_disjoint (Or.inr (mem_keyFamilies (by simp) _))

/-- Handling a transaction leaves the quarantine rules alone. -/
theorem handleBatch_tx_quarantine {rt : Runtime} {kafka : KafkaConfig} (cfg : RedisConfig) (now : ℕ)
    (r : TxRecord rt kafka) (db : Db) (userId : String) :
    (handleBatch rt kafka cfg now [r.record] db).2 (quarantineKey userId) = db (quarantineKey userId) := by
  rw [handleBatch_tx_frame cfg now r db (quarantineKey_notMem_cooldownKeys _),
    scanTx_frame rt cfg now r.tx r.ref db (quarantineKey_notMem_detectionKeys _)]

/-! ## Which findings a transaction has -/

/-- The findings besides a replay that `tx_check` makes on a keyspace, by type. -/
def firing (rt : Runtime) (keys : TxKeys) (a : TxArgs) (threshold : ℤ) (db : Db) : List String :=
  (if threshold < ((members (db keys.burst)).slide a.burstCutoff a.nowTs a.eventId).card then
    ["fraud_burst"] else []) ++
  (if (geoFinding rt a (fields (db keys.session))).status = .anomaly then
    ["geo_velocity_anomaly"] else [])

/-- The findings of a reply by type, in the order the detectors are asked. -/
theorem findings_types (cfg : RedisConfig) (tx : TransactionEvent) (r : TxReply) :
    (findings cfg tx r).map (·.detectionType) =
      (if r.replayStatus = .replay then ["replay_attack"] else []) ++
      (if r.geoStatus = .anomaly then ["geo_velocity_anomaly"] else []) ++
      (if cfg.burstThreshold < r.burstCount then ["fraud_burst"] else []) := by
  simp only [findings, replayInterpret, geoInterpret, burstInterpret, ← not_lt, ite_not]
  split <;> split <;> split <;> rfl

/-- On an event that is not prescored the engine finds a replay if the status says so, and what fires. -/
theorem mem_findings_types {rt : Runtime} {cfg : RedisConfig} (now : ℕ) {tx : TransactionEvent}
    {ref : String} {ts : ℚ} {db : Db}
    (h : replayStatusOf (storedRef db (txKeys rt tx).replay) (txArgs cfg tx ref ts) ≠ .prescored)
    (type : String) :
    type ∈ (findings cfg tx (txCheck rt now (txKeys rt tx) (txArgs cfg tx ref ts) db).1).map
        (·.detectionType) ↔
      (type = "replay_attack" ∧
        replayStatusOf (storedRef db (txKeys rt tx).replay) (txArgs cfg tx ref ts) = .replay) ∨
      type ∈ firing rt (txKeys rt tx) (txArgs cfg tx ref ts) cfg.burstThreshold db := by
  rw [findings_types, txCheck_scored (txKeys_distinct rt tx) h]
  simp only [firing, List.mem_append, List.mem_ite_nil_right, List.mem_singleton]
  tauto

/-! ## What a transaction can lead to -/

/-- The types a transaction can lead to. -/
def txTypes : List String := ["replay_attack", "geo_velocity_anomaly", "fraud_burst"]

/-- A detection of one of these types that names the transaction and its user, and no address. -/
structure AboutTx (tx : TransactionEvent) (d : DetectionEvent) : Prop where
  type : d.detectionType ∈ txTypes
  userId : d.userId = tx.userId
  transactionId : d.transactionId = tx.eventId
  ipAddress : d.ipAddress = none

theorem findings_about {cfg : RedisConfig} {tx : TransactionEvent} {r : TxReply} {d : DetectionEvent}
    (hd : d ∈ findings cfg tx r) : AboutTx tx d := by
  obtain ⟨o, ho, rfl⟩ := List.mem_filterMap.mp hd
  simp only [List.mem_cons, List.not_mem_nil, or_false] at ho
  -- each detector copies the ids of the transaction
  rcases ho with h | h | h
  · unfold replayInterpret at h
    split at h <;> cases h
    exact ⟨by simp [txTypes], rfl, rfl, rfl⟩
  · unfold geoInterpret at h
    split at h <;> cases h
    exact ⟨by simp [txTypes], rfl, rfl, rfl⟩
  · unfold burstInterpret at h
    split at h <;> cases h
    exact ⟨by simp [txTypes], rfl, rfl, rfl⟩

theorem detectionFromReason_about {tx : TransactionEvent} {verdict reason : Json} {d : DetectionEvent}
    (h : detectionFromReason tx verdict reason = .ok (some d)) : AboutTx tx d := by
  obtain ⟨dtype, -, h⟩ := except_bind_eq_ok.mp h
  split at h
  · split at h
    · rename_i htype
      obtain ⟨details, -, h⟩ := except_bind_eq_ok.mp h
      split at h
      · cases h
        exact ⟨by simpa [txTypes, or_assoc] using htype, rfl, rfl, rfl⟩
      · cases h
    · cases h
  · cases h

/-- A stored decision speaks about its transaction only, whatever it says. -/
theorem detectionsFromDecision_about {tx : TransactionEvent} {raw : Option Payload} {ds : List DetectionEvent}
    (h : detectionsFromDecision tx raw = .ok ds) {d : DetectionEvent} (hd : d ∈ ds) : AboutTx tx d := by
  unfold detectionsFromDecision at h
  split at h
  · obtain ⟨reasons, -, h⟩ := except_bind_eq_ok.mp h
    obtain ⟨verdict, -, h⟩ := except_bind_eq_ok.mp h
    obtain ⟨elements, -, h⟩ := except_bind_eq_ok.mp h
    obtain ⟨found, hfound, h⟩ := except_bind_eq_ok.mp h
    cases h
    obtain ⟨o, ho, rfl⟩ := List.mem_filterMap.mp hd
    obtain ⟨reason, -, hreason⟩ := mem_of_mapM_ok hfound ho
    exact detectionFromReason_about hreason
  · cases h
    cases hd

/-- Whatever the analysis of a transaction finds is about the transaction. -/
theorem scanTx_about {rt : Runtime} {cfg : RedisConfig} {now : ℕ} {tx : TransactionEvent} {ref : String}
    {db : Db} {ds : List DetectionEvent} (h : (scanTx rt cfg now tx ref db).1 = .ok ds)
    {d : DetectionEvent} (hd : d ∈ ds) : AboutTx tx d := by
  unfold scanTx at h
  split at h
  · cases h
    cases hd
  split at h
  · cases h
  dsimp only at h
  split at h
  · exact detectionsFromDecision_about h hd
  · cases h
    exact findings_about hd

/-! ## A sample transaction -/

namespace Sample

/-- A transaction of `u1`, always from the same place. -/
def tx (eventId : String) : TransactionEvent where
  eventId := eventId
  userId := "u1"
  amount := .num (25 / 2)
  merchant := "shop"
  timestamp := ⟨2024, 1, 1, 0, 0, 0, 0, some 0, by decide⟩
  location := "NYC"
  latitude := .num 0
  longitude := .num 0

/-- The document of `tx eventId`. -/
def value (eventId : String) : Json :=
  .obj [("event_id", .str eventId), ("user_id", .str "u1"), ("amount", .num (.num (25 / 2))),
    ("merchant", .str "shop"), ("timestamp", .str "2024-01-01T00:00:00+00:00"), ("location", .str "NYC"),
    ("latitude", .num (.num 0)), ("longitude", .num (.num 0))]

/-- The libraries on the sample: the digest of its payload, the ids of its deliveries, and trigonometry
at the origin. -/
def runtime : Runtime where
  validateTx
    | .obj fs => match fs.lookup "event_id" with
        | some (.str eventId) => some (tx eventId)
        | _ => none
    | _ => none
  validateAuth _ := none
  sha256 _ := "587539aa0d81fdc00a7227eee9b006e7cce931d7845411b36dec8dcc8c4f89d4"
  uuid5
    | "tx-events:0:0:replay_attack:" => "82c5a0e0-a885-533c-881c-eb2d81ba8fbe"
    | "tx-events:0:0:fraud_burst:" => "75288443-4b74-50b3-9c47-6c87f3524cbe"
    | "tx-events:0:1:replay_attack:" => "bc0af244-ca87-52ce-9994-83efabf5284a"
    | "tx-events:0:1:fraud_burst:" => "21fd9e8a-5615-5f69-881a-b4713f357fea"
    | "decision:0:7:replay_attack:" => "ab2e7f33-d28a-593b-8924-00d2fb99543c"
    | _ => ""
  naiveTimestamp _ := none
  strOf _ := "None"
  pi := 355 / 113
  sin x := x
  cos _ := 1
  asin x := x
  sqrt x := x

/-- The record at `offset` with `tx eventId`. -/
def record (offset : ℕ) (eventId : String) : TxRecord runtime {} where
  record := ⟨"tx-events", 0, offset, value eventId⟩
  tx := tx eventId
  topic_ne := show "tx-events" ≠ "auth-events" by decide
  valid := rfl

end Sample

end Rtace
