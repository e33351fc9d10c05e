import Rtace.Decision.Engine
import Rtace.Detection.SingleRecord

/-!
# The decision document

The document `Decide` stores under `decision:result:{event_id}` has two readers: `Decide` itself on a
retry, and the detection engine on a prescored event.
-/

namespace Rtace.Engine

open Lib Redis

theorem txKeys_subset (rt : Runtime) (tx : Transaction) :
    ({(txKeys rt tx).replay, (txKeys rt tx).burst, (txKeys rt tx).session} : Set String) ⊆ detectionKeys := by
  rintro k (rfl | rfl | rfl)
  · exact mem_keyFamilies (by simp) _
  · exact mem_keyFamilies (by simp) _
  · exact mem_keyFamilies (by simp) _

/-! ## Read back by the decision service -/

theorem asVerdict_text (v : Verdict) : asVerdict (.str v.text) = some v := by
  cases v with
  | allow => rfl
  | challenge => rfl
  | deny => rfl

theorem asInt_num (n : ℤ) : asInt (.num (.num n)) = some n := by
  simp [asInt]

theorem asReason_toJson (r : Reason) : asReason r.toJson = some r := by
  simp [asReason, Reason.toJson, field, List.lookup_cons, asString, asInt_num, asDict]

theorem asReasons_toJson (rs : List Reason) : asReasons (.arr (rs.map Reason.toJson)) = some rs := by
  simp only [asReasons]
  induction rs with
  | nil => rfl
  | cons r rs ih => simp [List.mapM_cons, asReason_toJson, ih]

/-- What `json.Marshal` writes, `json.Unmarshal` reads back. -/
theorem unmarshal_toJson (d : Decision) : unmarshal d.toJson = some d := by
  simp [unmarshal, Decision.toJson, field, List.lookup_cons, asString, asInt_num, asBool, asVerdict_text,
    asReasons_toJson]

theorem eq_toJson_of_marshal {d : Decision} {doc : Json} (h : marshal d = some doc) :
    doc = d.toJson := by
  unfold marshal at h
  split at h
  · exact (Option.some.inj h).symm
  · cases h

/-- The script reports an anomaly only between finite places. -/
theorem geoFinding_anomaly {rt : Runtime} {a : TxArgs} {s : Option Flt × Option Flt × Option ℚ}
    (h : (geoFinding rt a s).status = .anomaly) :
    (∃ x, a.lat = .num x) ∧ (∃ x, a.lon = .num x) ∧ (∃ x, (geoFinding rt a s).distance = .num x) ∧
      (∃ x, (geoFinding rt a s).elapsed = .num x) ∧ (∃ x, (geoFinding rt a s).velocity = .num x) ∧
      (∃ x, (geoFinding rt a s).prevLat = some (.num x)) ∧
      (∃ x, (geoFinding rt a s).prevLon = some (.num x)) := by
  rcases s with ⟨_ | lat, _ | lon, _ | ts⟩ <;> try cases h
  by_cases hlate : a.nowTs - ts < 0
  · simp [geoFinding, hlate] at h
  simp only [geoFinding, hlate, if_false] at h ⊢
  -- a velocity above the limit is a number, and it is one only if all four coordinates are
  rcases hlat : a.lat with x | _ | _ <;> rcases hlon : a.lon with y | _ | _ <;>
    rcases lat with p | _ | _ <;> rcases lon with q | _ | _ <;>
    simp [hlat, hlon, haversineFlt, Flt.divBy, Flt.gt] at h ⊢

/-- The numbers of an anomaly that the script reports are finite. -/
structure FiniteAnomaly (tx : Transaction) (r : TxReply) : Prop where
  latitude : ∃ x, tx.latitude = .num x
  longitude : ∃ x, tx.longitude = .num x
  distance : ∃ x, r.distance = .num x
  elapsed : ∃ x, r.elapsed = .num x
  velocity : ∃ x, r.velocity = .num x
  prevLat : ∃ x, r.prevLat = some (.num x)
  prevLon : ∃ x, r.prevLon = some (.num x)

theorem runTxCheck_anomaly {rt : Runtime} {cfg : Config} {now : ℕ} {tx : Transaction} {db : Db}
    (h : (runTxCheck rt cfg now tx db).1.geoStatus = .anomaly) : FiniteAnomaly tx (runTxCheck rt cfg now tx db).1 := by
  by_cases hpre : replayStatusOf (storedRef db (txKeys rt tx).replay) (txArgs cfg tx) = .prescored
  · rw [runTxCheck, txCheck_prescored hpre] at h
    cases h
  · rw [runTxCheck, txCheck_scored (txKeys_distinct rt tx) hpre] at h ⊢
    obtain ⟨hlat, hlon, ⟨x, hx⟩, ⟨y, hy⟩, ⟨z, hz⟩, hplat, hplon⟩ := geoFinding_anomaly h
    refine ⟨hlat, hlon, ?_, ?_, ?_, hplat, hplon⟩
    · simp only [hx, fmt]
      exact ⟨_, rfl⟩
    · simp only [hy, fmt]
      exact ⟨_, rfl⟩
    · simp only [hz, fmt]
      exact ⟨_, rfl⟩

/-- Reasons with finite numbers print as JSON. -/
theorem finiteList_reasons {rs : List Reason} (h : ∀ x ∈ rs, finiteFields x.details) :
    finiteList (rs.map Reason.toJson) := by
  induction rs with
  | nil => rfl
  | cons x rs ih =>
      simp only [List.map_cons, finiteList, Reason.toJson, finiteJson, finiteFields, finiteField,
        h x (by simp), ih fun y hy => h y (by simp [hy]), Bool.and_self]

/-- The reasons for a reply that is no replay have finite numbers, if its anomaly has. -/
theorem finite_interpret {cfg : Config} {tx : Transaction} {r : TxReply} (h : r.replayStatus ≠ .replay)
    (hgeo : r.geoStatus = .anomaly → FiniteAnomaly tx r) {x : Reason} (hx : x ∈ interpret cfg tx r) :
    finiteFields x.details := by
  simp only [interpret, if_neg h, List.nil_append, List.mem_append] at hx
  rcases hx with hx | hx
  · split at hx
    · obtain rfl := List.mem_singleton.mp hx
      rfl
    · cases hx
  · split at hx
    · rename_i hanomaly
      obtain ⟨⟨a, ha⟩, ⟨b, hb⟩, ⟨c, hc⟩, ⟨d, hd⟩, ⟨e, he⟩, ⟨f, hf⟩, ⟨g, hg⟩⟩ := hgeo hanomaly
      obtain rfl := List.mem_singleton.mp hx
      simp only [ha, hb, hc, hd, he, hf, hg, parseCoordinate, Option.getD_some]
      rfl
    · cases hx

/-- The decision for a reply that is no replay can be marshalled. -/
theorem marshal_scored {rt : Runtime} {cfg : Config} {now : ℕ} (call : Call) {tx : Transaction}
    {db : Db} (h : (runTxCheck rt cfg now tx db).1.replayStatus ≠ .replay) :
    marshal (scored cfg call tx (runTxCheck rt cfg now tx db).1)
      = some (scored cfg call tx (runTxCheck rt cfg now tx db).1).toJson := by
  have hreasons : finiteList ((interpret cfg tx (runTxCheck rt cfg now tx db).1).map Reason.toJson) :=
    finiteList_reasons fun x hx => finite_interpret h runTxCheck_anomaly hx
  have hdoc : finiteJson (scored cfg call tx (runTxCheck rt cfg now tx db).1).toJson := by
    simp only [scored, newDecision, Decision.toJson, finiteJson, finiteFields, finiteField, hreasons,
      Bool.and_self]
  simp only [marshal, if_pos hdoc]

/-! ## Read by the detection engine -/

/-- The reason types the detection engine re-emits. -/
def reemitted (type : String) : Bool :=
  type = "replay_attack" ∨ type = "geo_velocity_anomaly" ∨ type = "fraud_burst"

/-- The detection made from one reason of a stored decision. -/
def reasonDetection (tx : TransactionEvent) (d : Decision) (r : Reason) : DetectionEvent where
  detectionId := "pending"
  detectionType := r.type
  severity := "high"
  userId := tx.userId
  transactionId := tx.eventId
  timestamp := .event tx.timestamp
  ipAddress := none
  details := Dict.insert (Dict.insert r.details "source" (.str "decision-service")) "verdict"
    (.str d.verdict.text)

theorem detectionFromReason_toJson (tx : TransactionEvent) (d : Decision) (r : Reason) :
    detectionFromReason tx (.str d.verdict.text) r.toJson
      = .ok (if reemitted r.type then some (reasonDetection tx d r) else none) := by
  simp only [detectionFromReason, Reason.toJson, Json.getD, List.lookup_cons, bind, Except.bind, pure, Except.pure]
  by_cases h : r.type = "replay_attack" ∨ r.type = "geo_velocity_anomaly" ∨ r.type = "fraud_burst"
  · simp [h, reemitted, reasonDetection]
  · simp [h, reemitted]

/-- The detection engine finds one detection for each known reason of a stored decision, in order. -/
theorem detectionsFromDecision_toJson (tx : TransactionEvent) (d : Decision) :
    detectionsFromDecision tx (some (.json d.toJson))
      = .ok ((d.reasons.filter fun r => reemitted r.type).map (reasonDetection tx d)) := by
  have hmap : ∀ rs : List Reason,
      (rs.map Reason.toJson).mapM (detectionFromReason tx (.str d.verdict.text))
        = .ok (rs.map fun r => if reemitted r.type then some (reasonDetection tx d r) else none) := by
    intro rs
    induction rs with
    | nil => rfl
    | cons r rs ih =>
        rw [List.map_cons, List.mapM_cons, detectionFromReason_toJson, ih]
        rfl
  have hfilter : ∀ rs : List Reason,
      (rs.map fun r => if reemitted r.type then some (reasonDetection tx d r) else none).filterMap id
        = (rs.filter fun r => reemitted r.type).map (reasonDetection tx d) := by
    intro rs
    induction rs with
    | nil => rfl
    | cons r rs ih =>
        by_cases h : reemitted r.type
        · simp [h, ← ih]
        · simp [h, ← ih]
  simp only [detectionsFromDecision, Decision.toJson, Json.getD, List.lookup_cons, Json.elements, bind,
    Except.bind, pure, Except.pure, String.reduceBEq, Option.getD_some]
  rw [show (d.reasons.map Reason.toJson).mapM (detectionFromReason tx (.str d.verdict.text)) = _ from hmap _]
  simp only [hfilter]

/-- The reasons of a scored delivery by type: a replay if the status says so, and what fires. -/
theorem mem_interpret_types {rt : Runtime} {cfg : Config} (now : ℕ) {tx : Transaction} {db : Db}
    (h : replayStatusOf (storedRef db (txKeys rt tx).replay) (txArgs cfg tx) ≠ .prescored)
    (type : String) :
    type ∈ (interpret cfg tx (runTxCheck rt cfg now tx db).1).map Reason.type ↔
      (type = "replay_attack" ∧
        replayStatusOf (storedRef db (txKeys rt tx).replay) (txArgs cfg tx) = .replay) ∨
      type ∈ firing rt (txKeys rt tx) (txArgs cfg tx) cfg.burstThreshold db := by
  have htypes : ∀ r : TxReply, (interpret cfg tx r).map Reason.type =
      (if r.replayStatus = .replay then ["replay_attack"] else []) ++
      (if cfg.burstThreshold < r.burstCount then ["fraud_burst"] else []) ++
      (if r.geoStatus = .anomaly then ["geo_velocity_anomaly"] else []) := by
    intro r
    simp only [interpret, gt_iff_lt]
    split <;> split <;> split <;> rfl
  rw [htypes, runTxCheck, txCheck_scored (txKeys_distinct rt tx) h]
  simp only [firing, List.mem_append, List.mem_ite_nil_right, List.mem_singleton]
  tauto

end Rtace.Engine

namespace Rtace

/-- Both services see the same transaction: the same ids, replay key, event time and coordinates. -/
structure SameEvent (rt : Runtime) (call : Engine.Call) (g : Engine.Transaction) (tx : TransactionEvent) :
    Prop where
  eventId : g.eventId = tx.eventId
  userId : g.userId = tx.userId
  replayHash : (g.stamped call).replayHash rt = tx.replayHash rt
  timestamp : tx.timestamp.timestamp rt = .ok (g.stamped call).nowTs
  latitude : (g.stamped call).latitude = tx.latitude
  longitude : (g.stamped call).longitude = tx.longitude

namespace SameEvent

variable {rt : Runtime} {call : Engine.Call} {g : Engine.Transaction} {tx : TransactionEvent}

theorem replay_key (h : SameEvent rt call g tx) :
    (Engine.txKeys rt (g.stamped call)).replay = replayKey (tx.replayHash rt) := by
  simp only [Engine.txKeys, h.replayHash]

theorem stamped_eventId (h : SameEvent rt call g tx) : (g.stamped call).eventId = tx.eventId := by
  rw [Engine.stamped_eventId, h.eventId]

theorem recordRef (h : SameEvent rt call g tx) (gcfg : Engine.Config) :
    (Engine.txArgs gcfg (g.stamped call)).recordRef = decisionRef tx.eventId := by
  rw [Engine.txArgs, h.stamped_eventId]

end SameEvent

namespace Sample

/-- `tx eventId` as the decision service sees it. -/
def transaction (eventId : String) : Engine.Transaction where
  eventId := eventId
  userId := "u1"
  amount := .num (25 / 2)
  merchant := "shop"
  timestamp := ⟨2024, 1, 1, 0, 0, 0, 0, 0, by decide⟩
  location := "NYC"
  latitude := .num 0
  longitude := .num 0
  ipAddress := ""

/-- One call of `Decide`. -/
def call : Engine.Call where
  uuid := "0f8fad5b-d9cb-469f-a165-70867728950e"
  clock := ⟨2024, 1, 1, 0, 0, 1, 0, 0, by decide⟩
  decidedAt := "2024-01-01T00:00:01Z"

theorem stamped (eventId : String) : (transaction eventId).stamped call = transaction eventId :=
  if_neg (show ¬ (Engine.GoTime.isZero ⟨2024, 1, 1, 0, 0, 0, 0, 0, by decide⟩ = true) by decide)

theorem sameEvent (eventId : String) : SameEvent runtime call (transaction eventId) (tx eventId) where
  eventId := rfl
  userId := rfl
  replayHash := rfl
  timestamp := by
    rw [stamped]
    exact congrArg Except.ok (show (tx "").timestamp.civilSeconds - (0 : ℤ) = (transaction "").nowTs by
      decide +kernel)
  latitude := by rw [stamped]; rfl
  longitude := by rw [stamped]; rfl

end Sample

end Rtace
