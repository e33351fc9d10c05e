import Rtace.Containment.Actions
import Rtace.Decision.LostResult

/-!
# What a detection id stands for

The stable id names the record, the detector and the scope of a detection, and nothing else. Each detector
has its own id prefix, so two ids with the same prefix are of the same kind, and the rest of the id is the
`uuid5` of a text that ends alike for both; what is left of the two texts are the record references.

The other half is that a record has at most one candidate of each kind. Of the detectors that is plain. Of
a decision it holds because `Decide` gives at most one reason of a type and never a scope (`ByDecide`), which
is an invariant of the stored results. Batches, decisions and everything else interleave (`StreamStep`); of
a batch only the reads of the results matter, so what the rules and the scripts answer is left open.
-/

namespace Rtace

open Lib Redis

/-! ## The id -/

/-- `detection.details.get("scope", "")`. -/
def DetectionEvent.scope (d : DetectionEvent) : Json := (d.detail "scope").getD (.str "")

/-- Detection type and scope of what the detectors find. -/
def kinds : List (String × String) :=
  [("replay_attack", ""), ("geo_velocity_anomaly", ""), ("fraud_burst", ""), ("credential_stuffing", "user"),
    ("credential_stuffing", "ip")]

/-- The detection is of a kind. -/
def DetectionEvent.IsKind (d : DetectionEvent) (k : String × String) : Prop :=
  d.detectionType = k.1 ∧ d.scope = .str k.2

/-- The id prefix of a kind. -/
def kindPrefix (k : String × String) : String :=
  if k.1 = "credential_stuffing" ∧ k.2 ≠ "" then idPrefixOf k.1 ++ "-" ++ k.2 else idPrefixOf k.1

/-- The id of a detection of a kind. -/
def kindId (rt : Runtime) (ref : String) (k : String × String) : String :=
  stableDetectionId rt (kindPrefix k) ref k.1 k.2

theorem assignStableId_kind (rt : Runtime) (ref : String) {d : DetectionEvent} {k : String × String}
    (h : d.IsKind k) : (assignStableId rt ref d).detectionId = kindId rt ref k := by
  obtain ⟨htype, hscope⟩ := h
  have hscope : (d.detail "scope").getD (.str "") = .str k.2 := hscope
  simp [assignStableId, kindId, kindPrefix, htype, hscope, Json.truthy, Json.text]

/-- No two kinds have prefixes that could be taken for each other. -/
theorem kindPrefix_incomparable : ∀ k ∈ kinds, ∀ k' ∈ kinds,
    k = k' ∨ Incomparable ("det-" ++ kindPrefix k ++ "-") ("det-" ++ kindPrefix k' ++ "-") := by
  decide

/-- The id stands for the reference and the kind. -/
theorem kindId_inj {rt : Runtime} (hinj : Function.Injective rt.uuid5) {ref ref' : String}
    {k k' : String × String} (hk : k ∈ kinds) (hk' : k' ∈ kinds) :
    kindId rt ref k = kindId rt ref' k' ↔ ref = ref' ∧ k = k' := by
  constructor
  · intro h
    rcases kindPrefix_incomparable k hk k' hk' with rfl | hdiffer
    · have huuid : ref ++ ":" ++ k.1 ++ ":" ++ k.2 = ref' ++ ":" ++ k.1 ++ ":" ++ k.2 :=
        hinj ((String.append_right_inj _).mp h)
      rw [String.append_left_inj, String.append_left_inj, String.append_left_inj, String.append_left_inj] at huuid
      exact ⟨huuid, rfl⟩
    · exact absurd h (append_ne_of_incomparable hdiffer _ _)
  · rintro ⟨rfl, rfl⟩
    rfl

/-! ## The candidates of a record -/

/-- The candidates are of different kinds. -/
def OfKinds (ds : List DetectionEvent) : Prop :=
  ∃ ks : List (String × String), List.Forall₂ DetectionEvent.IsKind ds ks ∧ ks.Nodup ∧ ks ⊆ kinds

theorem ofKinds_nil : OfKinds [] := ⟨[], .nil, List.nodup_nil, List.nil_subset _⟩

/-- The outputs of detectors of different kinds. -/
theorem ofKinds_filterMap {os : List (Option DetectionEvent)} (ks : List (String × String))
    (h : List.Forall₂ (fun o k => ∀ d ∈ o, DetectionEvent.IsKind d k) os ks) (hnodup : ks.Nodup) (hknown : ks ⊆ kinds) :
    OfKinds (os.filterMap id) := by
  suffices ∃ ks' : List (String × String), List.Forall₂ DetectionEvent.IsKind (os.filterMap id) ks' ∧
      ks'.Sublist ks by
    obtain ⟨ks', hkinds, hsub⟩ := this
    exact ⟨ks', hkinds, hnodup.sublist hsub, fun k hk => hknown (hsub.subset hk)⟩
  clear hnodup hknown
  induction h with
  | nil => exact ⟨[], .nil, .slnil⟩
  | @cons o k os ks hd _ ih =>
      obtain ⟨ks', hkinds, hsub⟩ := ih
      cases o with
      | none => exact ⟨ks', hkinds, hsub.cons k⟩
      | some d => exact ⟨k :: ks', .cons (hd d rfl) hkinds, hsub.cons_cons k⟩

theorem ofKinds_findings (cfg : RedisConfig) (tx : TransactionEvent) (r : TxReply) : OfKinds (findings cfg tx r) := by
  refine ofKinds_filterMap [("replay_attack", ""), ("geo_velocity_anomaly", ""), ("fraud_burst", "")]
    (.cons ?_ (.cons ?_ (.cons ?_ .nil))) (by decide) (by decide)
  · intro d hd
    unfold replayInterpret at hd
    split at hd <;> cases hd
    exact ⟨rfl, rfl⟩
  · intro d hd
    unfold geoInterpret at hd
    split at hd <;> cases hd
    exact ⟨rfl, rfl⟩
  · intro d hd
    unfold burstInterpret at hd
    split at hd <;> cases hd
    exact ⟨rfl, rfl⟩

theorem ofKinds_stuffing (cfg : RedisConfig) (a : AuthEvent) (countUser countIp : ℕ) :
    OfKinds ([(stuffingInterpret cfg a countUser countIp).1, (stuffingInterpret cfg a countUser countIp).2].filterMap
      id) := by
  have hkind : ∀ scope count threshold, ∀ d ∈ stuffingDetection cfg a scope count threshold,
      DetectionEvent.IsKind d ("credential_stuffing", scope) := by
    intro scope count threshold d hd
    unfold stuffingDetection at hd
    split at hd <;> cases hd
    exact ⟨rfl, rfl⟩
  exact ofKinds_filterMap [("credential_stuffing", "user"), ("credential_stuffing", "ip")]
    (.cons (hkind _ _ _) (.cons (hkind _ _ _) .nil)) (by decide) (by decide)

/-- What the detection loop adds to an item. -/
theorem ofKinds_interpretItem (cfg : RedisConfig) {it : Item} (h : it.candidates = []) :
    OfKinds (interpretItem cfg it).candidates ∧
      ((interpretItem cfg it).prescored → (interpretItem cfg it).candidates = []) := by
  unfold interpretItem
  split
  · rename_i tx r hevent hresult
    split
    · exact ⟨h ▸ ofKinds_nil, fun _ => h⟩
    · rename_i hstatus
      refine ⟨?_, fun hpre => ?_⟩
      · rw [h, List.nil_append]
        exact ofKinds_findings cfg tx r
      · simp [Item.prescored, hevent, hresult, hstatus] at hpre
  · rename_i a countUser countIp hevent hresult
    refine ⟨?_, fun hpre => ?_⟩
    · rw [h]
      exact ofKinds_stuffing cfg a countUser countIp
    · simp [Item.prescored, hevent] at hpre
  · exact ⟨h ▸ ofKinds_nil, fun _ => h⟩

/-- A result as `Decide` stores it. -/
def ByDecide (p : Payload) : Prop := ∃ cfg call tx r, p = .json (Engine.scored cfg call tx r).toJson

/-- A decision has at most one reason of a type, and no reason has a scope. -/
theorem ofKinds_decision {tx : TransactionEvent} {raw : Option Payload} (hraw : ∀ p ∈ raw, ByDecide p)
    {ds : List DetectionEvent} (h : detectionsFromDecision tx raw = .ok ds) : OfKinds ds := by
  cases raw with
  | none =>
      cases h
      exact ofKinds_nil
  | some p =>
      obtain ⟨cfg, call, g, r, rfl⟩ := hraw p rfl
      rw [Engine.detectionsFromDecision_toJson] at h
      cases h
      refine ⟨(if r.replayStatus = .replay then [("replay_attack", "")] else []) ++
        (if (r.burstCount : ℤ) > cfg.burstThreshold then [("fraud_burst", "")] else []) ++
        (if r.geoStatus = .anomaly then [("geo_velocity_anomaly", "")] else []), ?_, ?_, ?_⟩
      · have hpiece : ∀ (c : Prop) [Decidable c] (reason : Engine.Reason) (k : String × String),
            Engine.reemitted reason.type → (Engine.reasonDetection tx (Engine.scored cfg call g r) reason).IsKind k →
            List.Forall₂ DetectionEvent.IsKind
              (((if c then [reason] else []).filter fun x => Engine.reemitted x.type).map
                (Engine.reasonDetection tx (Engine.scored cfg call g r))) (if c then [k] else []) := by
          intro c _ reason k hknown hkind
          split
          · have hkept : [reason].filter (fun x => Engine.reemitted x.type) = [reason] := by simp [hknown]
            rw [hkept]
            exact .cons hkind .nil
          · exact .nil
        change List.Forall₂ DetectionEvent.IsKind (((Engine.interpret cfg g r).filter _).map _) _
        simp only [Engine.interpret, List.filter_append, List.map_append]
        exact List.rel_append (List.rel_append (hpiece _ _ _ rfl ⟨rfl, rfl⟩) (hpiece _ _ _ rfl ⟨rfl, rfl⟩))
          (hpiece _ _ _ rfl ⟨rfl, rfl⟩)
      · split <;> split <;> split <;> decide
      · split <;> split <;> split <;> decide

/-! ## The stream -/

/-- Where a record stands. -/
def DecodedRecord.coordinates (r : DecodedRecord) : String × ℕ × ℕ := (r.topic, r.partition, r.offset)

/-- The record is accepted as an event. -/
def accepted (rt : Runtime) (kafka : KafkaConfig) (r : DecodedRecord) : Bool :=
  if r.topic = kafka.authEventsTopic then (rt.validateAuth r.value).isSome else (rt.validateTx r.value).isSome

/-- The items of a batch after the detection loop, for any answers of the rules and of the scripts. -/
def interpreted (rt : Runtime) (kafka : KafkaConfig) (cfg : RedisConfig) (records : List DecodedRecord)
    (flags : List Bool) (results : List Reply) : List Item :=
  let items := (validateRecords rt kafka 0 records).1
  let items := items.zipWith (fun it flag => if flag then { it with blocked := true } else it) flags
  (assignResults items results).map (interpretItem cfg)

/-- A candidate and the record it comes from. -/
structure Candidate where
  record : DecodedRecord
  detection : DetectionEvent

/-- The candidates of a batch with their ids, each with its record. -/
def candidatesOf (rt : Runtime) (items : List Item) (sources : List DecodedRecord) : List Candidate :=
  (items.zip sources).flatMap fun (it, r) => it.candidates.map fun d => ⟨r, assignStableId rt it.ref d⟩

/-- A batch in the `decision_fetch` phase: the records of the call, those it accepted, its items, and the
results read so far. -/
structure Reading where
  records : List DecodedRecord
  sources : List DecodedRecord
  items : List Item
  payloads : List (Option Payload)

/-- Redis and the batches under way. -/
structure Stream where
  db : Db
  batches : ℕ → Option Reading

/-- A batch has its candidates. -/
structure Found where
  records : List DecodedRecord
  candidates : List Candidate

/-- One step. A batch is any call of `handle_batch` up to its candidates, also one that is tried again. -/
inductive StreamStep (rt : Runtime) (s : Stream) : Option Found → Stream → Prop
  | check (i : ℕ) (kafka : KafkaConfig) (cfg : RedisConfig) (records : List DecodedRecord) (flags : List Bool)
      (results : List Reply) (hflags : flags.length = (validateRecords rt kafka 0 records).1.length) :
      StreamStep rt s none
        { s with batches := Function.update s.batches i (some
            ⟨records, records.filter (accepted rt kafka), interpreted rt kafka cfg records flags results, []⟩) }
  | fetch (i : ℕ) (b : Reading) (it : Item) (hi : s.batches i = some b)
      (hnext : (b.items.filter (·.prescored))[b.payloads.length]? = some it) :
      StreamStep rt s none
        { s with batches := Function.update s.batches i (some
            { b with payloads := b.payloads ++ [payload (s.db (resultKey it.event.eventId))] }) }
  | found (i : ℕ) (b : Reading) (items : List Item) (hi : s.batches i = some b)
      (hall : b.payloads.length = (b.items.filter (·.prescored)).length)
      (hitems : assignDecisions b.items b.payloads = .ok items) :
      StreamStep rt s (some ⟨b.records, candidatesOf rt items b.sources⟩)
        { s with batches := Function.update s.batches i none }
  /-- `Decide` stores a decision, for whatever the script has answered. -/
  | store (cfg : Engine.Config) (now : ℕ) (call : Engine.Call) (tx : Engine.Transaction) (r : TxReply) :
      StreamStep rt s none
        { s with db := (Engine.storeDecision cfg now tx (Engine.scored cfg call tx r) s.db).2 }
  /-- Anything else, expiry included: it stores no result. -/
  | other (db : Db) (hresult : ∀ e, db (resultKey e) = s.db (resultKey e) ∨ db (resultKey e) = none) :
      StreamStep rt s none { s with db }

/-- Nothing is under way, and no result is stored. -/
structure Stream.Initial (s : Stream) : Prop where
  batches : ∀ i, s.batches i = none
  results : ∀ e, payload (s.db (resultKey e)) = none

/-- Two candidates come from the same record, detector and scope. -/
structure Candidate.SameOrigin (c c' : Candidate) : Prop where
  record : c.record.coordinates = c'.record.coordinates
  detectionType : c.detection.detectionType = c'.detection.detectionType
  scope : c.detection.scope = c'.detection.scope

/-! ## What one step keeps -/

/-- The item belongs to the record, and its candidates are of different kinds. -/
structure Item.From (it : Item) (r : DecodedRecord) : Prop where
  ref : it.ref = r.ref
  kinds : OfKinds it.candidates

/-- Before the decisions are in, a prescored item has no candidates. -/
structure Item.Ready (it : Item) (r : DecodedRecord) : Prop extends it.From r where
  prescored : it.prescored → it.candidates = []

structure Reading.Sound (b : Reading) : Prop where
  sources : b.sources.Sublist b.records
  items : List.Forall₂ Item.Ready b.items b.sources
  payloads : ∀ raw ∈ b.payloads, ∀ p ∈ raw, ByDecide p

structure Stream.Sound (s : Stream) : Prop where
  results : ∀ e, ∀ p ∈ payload (s.db (resultKey e)), ByDecide p
  batches : ∀ i, ∀ b ∈ s.batches i, b.Sound

/-- The candidates of a batch are of different kinds for each record. -/
def Found.Sound (rt : Runtime) (f : Found) : Prop :=
  ∃ sources items, sources.Sublist f.records ∧ List.Forall₂ Item.From items sources ∧
    f.candidates = candidatesOf rt items sources

/-- The item belongs to the record and has no candidates yet. -/
def Item.Awaits (it : Item) (r : DecodedRecord) : Prop := it.ref = r.ref ∧ it.candidates = []

/-- Validation makes one item for each accepted record. -/
theorem validateRecords_awaits (rt : Runtime) (kafka : KafkaConfig) (i : ℕ) (records : List DecodedRecord) :
    List.Forall₂ Item.Awaits (validateRecords rt kafka i records).1 (records.filter (accepted rt kafka)) := by
  induction records generalizing i with
  | nil => exact .nil
  | cons r rs ih =>
      have hrest := ih (i + 1)
      by_cases htopic : r.topic = kafka.authEventsTopic
      · cases hevent : rt.validateAuth r.value with
        | none => simpa [validateRecords, accepted, htopic, hevent] using hrest
        | some e => simpa [validateRecords, accepted, htopic, hevent, Item.Awaits] using hrest
      · cases hevent : rt.validateTx r.value with
        | none => simpa [validateRecords, accepted, htopic, hevent] using hrest
        | some e => simpa [validateRecords, accepted, htopic, hevent, Item.Awaits] using hrest

theorem awaits_flags {items : List Item} {rs : List DecodedRecord} (h : List.Forall₂ Item.Awaits items rs)
    {flags : List Bool} (hflags : flags.length = items.length) :
    List.Forall₂ Item.Awaits
      (items.zipWith (fun it flag => if flag then { it with blocked := true } else it) flags) rs := by
  induction h generalizing flags with
  | nil => exact .nil
  | @cons it r items rs hit _ ih =>
      cases flags with
      | nil => cases hflags
      | cons flag flags =>
          rw [List.zipWith_cons_cons]
          refine .cons ?_ (ih (Nat.succ.inj hflags))
          split
          · exact hit
          · exact hit

theorem awaits_results {items : List Item} {rs : List DecodedRecord} (h : List.Forall₂ Item.Awaits items rs)
    (results : List Reply) : List.Forall₂ Item.Awaits (assignResults items results) rs := by
  induction h generalizing results with
  | nil => exact .nil
  | @cons it r items rs hit hrest ih =>
      simp only [assignResults]
      split
      · cases results with
        | nil => exact .cons hit hrest
        | cons result results => exact .cons hit (ih results)
      · exact .cons hit (ih results)

/-- The reading of a new batch. -/
theorem reading_start {rt : Runtime} {kafka : KafkaConfig} (cfg : RedisConfig) {records : List DecodedRecord}
    {flags : List Bool} (results : List Reply) (hflags : flags.length = (validateRecords rt kafka 0 records).1.length) :
    Reading.Sound
      ⟨records, records.filter (accepted rt kafka), interpreted rt kafka cfg records flags results, []⟩ := by
  have hawaits := awaits_results (awaits_flags (validateRecords_awaits rt kafka 0 records) hflags) results
  refine ⟨List.filter_sublist, List.forall₂_map_left_iff.mpr (hawaits.imp fun it r hit => ?_), by simp⟩
  obtain ⟨hkinds, hpre⟩ := ofKinds_interpretItem cfg hit.2
  refine ⟨⟨?_, hkinds⟩, hpre⟩
  rw [← hit.1]
  unfold interpretItem
  split
  · split <;> rfl
  · rfl
  · rfl

/-- The candidates are complete when the decisions are in. -/
theorem from_decisions {items : List Item} {rs : List DecodedRecord} (h : List.Forall₂ Item.Ready items rs)
    {payloads : List (Option Payload)} (hpayloads : ∀ raw ∈ payloads, ∀ p ∈ raw, ByDecide p) {its : List Item}
    (hits : assignDecisions items payloads = .ok its) : List.Forall₂ Item.From its rs := by
  induction h generalizing payloads its with
  | nil =>
      cases hits
      exact .nil
  | @cons it r items rs hit hrest ih =>
      simp only [assignDecisions] at hits
      split at hits
      · rename_i hscored
        split at hits
        · rename_i tx raw raws hevent
          obtain ⟨found, hfound, hits⟩ := except_bind_eq_ok.mp hits
          obtain ⟨rest, hrest, rfl⟩ := except_map_eq_ok.mp hits
          refine .cons ⟨hit.ref, ?_⟩ (ih (fun raw' h => hpayloads raw' (List.mem_cons_of_mem _ h)) hrest)
          rw [hit.prescored hscored, List.nil_append]
          exact ofKinds_decision (hpayloads raw List.mem_cons_self) hfound
        · cases hits
          exact .cons hit.toFrom (hrest.imp fun _ _ h => h.toFrom)
      · obtain ⟨rest, hrest, rfl⟩ := except_map_eq_ok.mp hits
        exact .cons hit.toFrom (ih hpayloads hrest)

/-- Storing a decision. -/
theorem byDecide_store {db : Db} (h : ∀ e, ∀ p ∈ payload (db (resultKey e)), ByDecide p) (cfg : Engine.Config)
    (now : ℕ) (call : Engine.Call) (tx : Engine.Transaction) (r : TxReply) :
    ∀ e, ∀ p ∈ payload ((Engine.storeDecision cfg now tx (Engine.scored cfg call tx r) db).2 (resultKey e)),
      ByDecide p := by
  intro e p hp
  by_cases he : e = tx.eventId
  · subst he
    cases hdoc : Engine.marshal (Engine.scored cfg call tx r) with
    | none =>
        simp only [Engine.storeDecision, hdoc] at hp
        exact h _ p hp
    | some doc =>
        rw [Engine.storeDecision_marshal hdoc] at hp
        cases hp
        exact ⟨cfg, call, tx, r, by rw [Engine.eq_toJson_of_marshal hdoc]⟩
  · rw [(Engine.footprint_storeDecision cfg now tx _).frame _ _ fun h => he (resultKey_injective h)] at hp
    exact h e p hp

/-- A step keeps the invariants, and what it finds is sound. -/
theorem Stream.Sound.step {rt : Runtime} {s t : Stream} {l : Option Found} (hs : s.Sound) (h : StreamStep rt s l t) :
    t.Sound ∧ ∀ f ∈ l, f.Sound rt := by
  obtain ⟨hresults, hbatches⟩ := hs
  have hupdate : ∀ (i : ℕ) (o : Option Reading), (∀ b ∈ o, b.Sound) →
      ∀ j, ∀ b ∈ Function.update s.batches i o j, b.Sound := by
    intro i o ho
    exact (Function.forall_update_iff s.batches fun _ o => ∀ b ∈ o, b.Sound).mpr
      ⟨ho, fun j _ => hbatches j⟩
  cases h with
  | check i kafka cfg records flags results hflags =>
      refine ⟨⟨hresults, hupdate i _ fun b hb => ?_⟩, by simp⟩
      cases hb
      exact reading_start cfg results hflags
  | fetch i b it hi hnext =>
      obtain ⟨hsources, hitems, hpayloads⟩ := hbatches i b hi
      refine ⟨⟨hresults, hupdate i _ fun b' hb' => ?_⟩, by simp⟩
      cases hb'
      refine ⟨hsources, hitems, fun raw hraw => ?_⟩
      rcases List.mem_append.mp hraw with hraw | hraw
      · exact hpayloads raw hraw
      · rw [List.mem_singleton.mp hraw]
        exact hresults _
  | found i b items hi hall hitems =>
      obtain ⟨hsources, hready, hpayloads⟩ := hbatches i b hi
      refine ⟨⟨hresults, hupdate i _ (by simp)⟩, fun f hf => ?_⟩
      cases hf
      exact ⟨b.sources, items, hsources, from_decisions hready hpayloads hitems, rfl⟩
  | store cfg now call tx r =>
      exact ⟨⟨byDecide_store hresults cfg now call tx r, hbatches⟩, by simp⟩
  | other db hresult =>
      refine ⟨⟨fun e p hp => ?_, hbatches⟩, by simp⟩
      have hp : p ∈ payload (db (resultKey e)) := hp
      rcases hresult e with h | h
      · rw [h] at hp
        exact hresults e p hp
      · rw [h] at hp
        cases hp

/-! ## What a run finds -/

theorem Stream.Initial.sound {s : Stream} (h : s.Initial) : s.Sound where
  results := fun e p hp => by simp [h.results e] at hp
  batches := fun i b hb => by simp [h.batches i] at hb

theorem run_found {rt : Runtime} {s t : Stream} {ls : List (Option Found)} (hs : s.Initial)
    (h : Run (StreamStep rt) s ls t) {f : Found} (hf : some f ∈ ls) : f.Sound rt :=
  (h.invariant_labels (P := fun l => ∀ f ∈ l, f.Sound rt) hs.sound fun _ _ _ hs hstep => hs.step hstep).2 _ hf f rfl

theorem DecodedRecord.ref_inj {r r' : DecodedRecord} : r.ref = r'.ref ↔ r.coordinates = r'.coordinates := by
  rw [DecodedRecord.ref, DecodedRecord.ref, recordRef_inj]
  simp [DecodedRecord.coordinates]

/-- The ids of the candidates of an item are those of its kinds. -/
theorem ids_of_kinds (rt : Runtime) (ref : String) {ds : List DetectionEvent} {ks : List (String × String)}
    (h : List.Forall₂ DetectionEvent.IsKind ds ks) :
    ds.map (fun d => (assignStableId rt ref d).detectionId) = ks.map (kindId rt ref) := by
  induction h with
  | nil => rfl
  | cons hd _ ih => rw [List.map_cons, List.map_cons, assignStableId_kind rt ref hd, ih]

theorem OfKinds.known {ds : List DetectionEvent} (h : OfKinds ds) {d : DetectionEvent} (hd : d ∈ ds) :
    ∃ k ∈ kinds, d.IsKind k := by
  obtain ⟨ks, hks, -, hknown⟩ := h
  obtain ⟨i, hi, rfl⟩ := List.getElem_of_mem hd
  have hlen := hks.length_eq
  exact ⟨ks[i], hknown (List.getElem_mem _), hks.get hi (hlen ▸ hi)⟩

section

variable {rt : Runtime} {f : Found}

/-- A candidate is of a known kind, and its id is the id of its record and kind. -/
theorem Found.Sound.candidate (hf : f.Sound rt) {c : Candidate} (hc : c ∈ f.candidates) :
    ∃ k ∈ kinds, c.detection.IsKind k ∧ c.detection.detectionId = kindId rt c.record.ref k := by
  obtain ⟨sources, items, -, hitems, heq⟩ := hf
  rw [heq, candidatesOf] at hc
  obtain ⟨⟨it, r⟩, hzip, hc⟩ := List.mem_flatMap.mp hc
  obtain ⟨d, hd, rfl⟩ := List.mem_map.mp hc
  obtain ⟨href, hkinds⟩ := List.forall₂_zip hitems hzip
  obtain ⟨k, hk, hkind⟩ := hkinds.known hd
  refine ⟨k, hk, hkind, ?_⟩
  rw [← href]
  exact assignStableId_kind rt it.ref hkind

/-- Two candidates have the same id exactly if they have the same origin. -/
theorem sameOrigin_iff {f' : Found} (hinj : Function.Injective rt.uuid5) (hf : f.Sound rt) (hf' : f'.Sound rt)
    {c c' : Candidate} (hc : c ∈ f.candidates) (hc' : c' ∈ f'.candidates) :
    c.detection.detectionId = c'.detection.detectionId ↔ c.SameOrigin c' := by
  obtain ⟨k, hk, ⟨htype, hscope⟩, hid⟩ := hf.candidate hc
  obtain ⟨k', hk', ⟨htype', hscope'⟩, hid'⟩ := hf'.candidate hc'
  rw [hid, hid', kindId_inj hinj hk hk', DecodedRecord.ref_inj]
  constructor
  · rintro ⟨hrecord, rfl⟩
    exact ⟨hrecord, htype.trans htype'.symm, hscope.trans hscope'.symm⟩
  · rintro ⟨hrecord, hsame, hsame'⟩
    rw [htype, htype'] at hsame
    rw [hscope, hscope'] at hsame'
    exact ⟨hrecord, Prod.ext hsame (Json.str.inj hsame')⟩

/-- The candidates of a batch of different records have different ids. -/
theorem Found.Sound.distinct (hinj : Function.Injective rt.uuid5) (hf : f.Sound rt)
    (hrecords : (f.records.map DecodedRecord.coordinates).Nodup) :
    (f.candidates.map fun c => c.detection.detectionId).Nodup := by
  obtain ⟨sources, items, hsources, hitems, heq⟩ := hf
  -- the references of the records, in the order of the items
  have hrefs : (items.zip sources).Pairwise fun x y => x.2.ref ≠ y.2.ref := by
    have hnodup : (sources.map DecodedRecord.coordinates).Nodup := hrecords.sublist (hsources.map _)
    have hsnd : (items.zip sources).map Prod.snd = sources := List.map_snd_zip (by rw [hitems.length_eq])
    rw [← hsnd, List.map_map, List.Nodup, List.pairwise_map] at hnodup
    exact hnodup.imp fun hne href => hne (DecodedRecord.ref_inj.mp href)
  have hids : ∀ x ∈ items.zip sources, ∃ ks : List (String × String), ks.Nodup ∧ ks ⊆ kinds ∧
      x.1.candidates.map (fun d => (assignStableId rt x.1.ref d).detectionId) = ks.map (kindId rt x.2.ref) := by
    rintro ⟨it, r⟩ hx
    obtain ⟨href, ks, hks, hnodup, hknown⟩ := List.forall₂_zip hitems hx
    exact ⟨ks, hnodup, hknown, by rw [← href, ids_of_kinds rt it.ref hks]⟩
  rw [heq, candidatesOf, List.map_flatMap, List.nodup_flatMap]
  constructor
  · intro x hx
    obtain ⟨ks, hnodup, hknown, hmap⟩ := hids x hx
    rw [List.map_map]
    refine (congrArg List.Nodup hmap).mpr (hnodup.map_on fun k hk k' hk' h => ?_)
    exact ((kindId_inj hinj (hknown hk) (hknown hk')).mp h).2
  · refine hrefs.imp_of_mem fun {x y} hx hy hne => ?_
    obtain ⟨ks, -, hknown, hmap⟩ := hids x hx
    obtain ⟨ks', -, hknown', hmap'⟩ := hids y hy
    intro id hid hid'
    simp only [List.map_map] at hid hid'
    have hid := (congrArg (id ∈ ·) hmap).mp hid
    have hid' := (congrArg (id ∈ ·) hmap').mp hid'
    obtain ⟨k, hk, rfl⟩ := List.mem_map.mp hid
    obtain ⟨k', hk', h⟩ := List.mem_map.mp hid'
    exact hne ((kindId_inj hinj (hknown' hk') (hknown hk)).mp h).1.symm

end

/-! ## The services as steps -/

section

variable {rt : Runtime} {s : Stream}

/-- A call of `Decide` is a run. -/
theorem stream_decide (cfg : Engine.Config) (now : ℕ) (call : Engine.Call) (tx : Engine.Transaction) :
    ∃ ls, Run (StreamStep rt) s ls { s with db := (Engine.decide rt cfg now call tx s.db).2 } := by
  by_cases hids : tx.eventId = "" ∨ tx.userId = ""
  · rw [Engine.decide_missingIds hids]
    exact ⟨_, .nil⟩
  cases hrule : Engine.refusal (tx.stamped call) (Engine.activeRules s.db (tx.stamped call)) with
  | some r =>
      rw [Engine.decide_refused hids hrule]
      exact ⟨_, .nil⟩
  | none =>
      have hscript : StreamStep rt s none
          { s with db := (Engine.runTxCheck rt cfg now (tx.stamped call) s.db).2 } :=
        .other _ fun e => Or.inl (runTxCheck_result rt cfg now (tx.stamped call) s.db e)
      by_cases hagain : (Engine.runTxCheck rt cfg now (tx.stamped call) s.db).1.replayStatus = .redelivery
      · rw [Engine.decide_redelivered hids hrule hagain]
        dsimp only
        split
        · exact ⟨_, .single hscript⟩
        · exact ⟨_, .cons hscript (.single (.store cfg now call _ _))⟩
      · rw [Engine.decide_scored hids hrule hagain]
        exact ⟨_, .cons hscript (.single (.store cfg now call _ _))⟩

/-- The results of a batch, read one after the other. -/
theorem stream_fetches {i : ℕ} {b : Reading} (hi : s.batches i = some b) (hb : b.payloads = []) {n : ℕ}
    (hn : n ≤ (storedDecisions s.db b.items).length) :
    ∃ ls, Run (StreamStep rt) s ls
      { s with batches := Function.update s.batches i (some
          { b with payloads := (storedDecisions s.db b.items).take n }) } := by
  induction n with
  | zero =>
      refine ⟨[], ?_⟩
      rw [List.take_zero, ← hb, ← hi, Function.update_eq_self]
      exact .nil
  | succ n ih =>
      obtain ⟨ls, hrun⟩ := ih (by omega)
      have hlen : n < (b.items.filter (·.prescored)).length := by
        rw [storedDecisions, List.length_map] at hn
        omega
      have hnext : (storedDecisions s.db b.items).take (n + 1) = (storedDecisions s.db b.items).take n ++
          [payload (s.db (resultKey ((b.items.filter (·.prescored)).get ⟨n, hlen⟩).event.eventId))] := by
        rw [List.take_add_one, List.getElem?_eq_getElem (by omega)]
        simp [storedDecisions]
      have hstep := hrun.snoc (.fetch i _ ((b.items.filter (·.prescored)).get ⟨n, hlen⟩) (Function.update_self ..) (by
        simp [storedDecisions, Nat.min_eq_left hlen.le]))
      refine ⟨ls ++ [none], ?_⟩
      rw [Function.update_idem] at hstep
      rw [hnext]
      exact hstep

theorem candidatesOf_detection (rt : Runtime) {items : List Item} {sources : List DecodedRecord}
    (h : items.length = sources.length) :
    (candidatesOf rt items sources).map Candidate.detection = collectCandidates rt items := by
  have hfst : (items.zip sources).map Prod.fst = items := List.map_fst_zip (by rw [h])
  rw [candidatesOf, List.map_flatMap, collectCandidates]
  nth_rewrite 2 [← hfst]
  rw [List.flatMap_map]
  simp only [List.map_map, Function.comp_def]

/-- A batch reads its results and finds its candidates. -/
theorem stream_finish (hs : s.Sound) {i : ℕ} {b : Reading} (hi : s.batches i = some b) (hb : b.payloads = [])
    {its : List Item} (hits : assignDecisions b.items (storedDecisions s.db b.items) = .ok its) :
    ∃ ls f, Run (StreamStep rt) s (ls ++ [some f]) { s with batches := Function.update s.batches i none } ∧
      f.records = b.records ∧ f.candidates.map Candidate.detection = collectCandidates rt its := by
  have hstored : ∀ raw ∈ storedDecisions s.db b.items, ∀ p ∈ raw, ByDecide p := by
    intro raw hraw
    obtain ⟨it, -, rfl⟩ := List.mem_map.mp hraw
    exact hs.results _
  obtain ⟨ls, hfetches⟩ : ∃ ls, Run (StreamStep rt) s ls _ := stream_fetches hi hb le_rfl
  rw [List.take_length] at hfetches
  have hfound := hfetches.snoc (.found i _ its (Function.update_self ..) (List.length_map _) hits)
  rw [Function.update_idem] at hfound
  have hfrom := from_decisions (hs.batches i b hi).items hstored hits
  exact ⟨ls, _, hfound, rfl, candidatesOf_detection rt hfrom.length_eq⟩

/-- How a batch comes to its candidates. -/
theorem candidates_eq_ok {cfg : RedisConfig} {now : ℕ} {items : List Item} {db : Db} {cands : List DetectionEvent}
    (h : candidates rt cfg now items db = .ok cands) :
    ∃ calls its its', ((items.map (mark db)).filter (·.active)).mapM (queueCheck rt cfg now) = .ok calls ∧
      its = (assignResults (items.map (mark db)) (runAll calls db).1).map (interpretItem cfg) ∧
      assignDecisions its (storedDecisions (runAll calls db).2 its) = .ok its' ∧ collectCandidates rt its' = cands := by
  obtain ⟨its', hits, hcands⟩ := except_map_eq_ok.mp h
  have hana : analysis rt cfg now items db =
      some ((analyse rt cfg now items db).1.1, its', (analyse rt cfg now items db).2) := by
    rw [analysis, hits]
    rfl
  rw [analysis_eq] at hana
  obtain ⟨calls, hcalls, hana⟩ := Option.bind_eq_some_iff.mp hana
  obtain ⟨found, hdecisions, heq⟩ := Option.map_eq_some_iff.mp hana
  have hfound : found = its' := congrArg (·.2.1) heq
  subst hfound
  exact ⟨calls, _, found, toOption_eq_some.mp hcalls, rfl, toOption_eq_some.mp hdecisions, hcands⟩

/-- A call of `handle_batch` that gets to its candidates is a run that finds them. -/
theorem stream_handleBatch (hs : s.Sound) {i : ℕ} (hi : s.batches i = none) {kafka : KafkaConfig} {cfg : RedisConfig}
    {now : ℕ} {records : List DecodedRecord} {cands : List DetectionEvent}
    (h : candidates rt cfg now (validateRecords rt kafka 0 records).1 s.db = .ok cands) :
    ∃ ls f, Run (StreamStep rt) s ls { s with db := (handleBatch rt kafka cfg now records s.db).2 } ∧ some f ∈ ls ∧
      f.records = records ∧ f.candidates.map Candidate.detection = cands := by
  obtain ⟨calls, its, its', hcalls, rfl, hdecisions, hcands⟩ := candidates_eq_ok h
  have hscripts : ∀ e, (runAll calls s.db).2 (resultKey e) = s.db (resultKey e) := fun e =>
    runAll_calls_frame hcalls s.db (resultKey_notMem_detectionKeys e)
  have hscript : StreamStep rt s none { s with db := (runAll calls s.db).2 } := .other _ fun e => Or.inl (hscripts e)
  have hcheck := StreamStep.check (s := { s with db := (runAll calls s.db).2 }) i kafka cfg records
    ((validateRecords rt kafka 0 records).1.map fun it => (s.db it.event.enforcementKey).isSome)
    (runAll calls s.db).1 (List.length_map _)
  rw [interpreted, zipWith_flags] at hcheck
  obtain ⟨ls, f, hfinish, hrecords, hfound⟩ :=
    stream_finish ((hs.step hscript).1.step hcheck).1 (Function.update_self ..) rfl hdecisions
  have hfree : Function.update s.batches i none = s.batches := Function.update_eq_self_iff.mpr hi.symm
  simp only [Function.update_idem, hfree] at hfinish
  -- the cooldowns of the call, which are no results
  have hclaims : ∀ e, (handleBatch rt kafka cfg now records s.db).2 (resultKey e) =
      (runAll calls s.db).2 (resultKey e) := by
    intro e
    rw [hscripts e]
    exact handleBatch_frame rt kafka cfg now records s.db (resultKey_notMem_detectionKeys e)
      (resultKey_notMem_cooldownKeys e)
  have hrun := ((Run.single hscript).append (.cons hcheck hfinish)).snoc (.other _ fun e => Or.inl (hclaims e))
  exact ⟨_, f, hrun, by simp, hrecords, hfound.trans hcands⟩

end

/-- In any runs, two candidates have the same id, and the same receipt, exactly if they come from the same
record, detector and scope; and the candidates of one batch of different records have different ids. -/
theorem detection_identity {rt : Runtime} (hinj : Function.Injective rt.uuid5) {s s' t t' : Stream}
    {ls ls' : List (Option Found)} (hs : s.Initial) (hs' : s'.Initial) (h : Run (StreamStep rt) s ls t)
    (h' : Run (StreamStep rt) s' ls' t') :
    (∀ f, some f ∈ ls → ∀ f', some f' ∈ ls' → ∀ c ∈ f.candidates, ∀ c' ∈ f'.candidates,
      (c.detection.detectionId = c'.detection.detectionId ↔ c.SameOrigin c') ∧
        (Containment.receiptKey c.detection.detectionId = Containment.receiptKey c'.detection.detectionId ↔
          c.SameOrigin c')) ∧
    ∀ f, some f ∈ ls → (f.records.map DecodedRecord.coordinates).Nodup →
      (f.candidates.map fun c => c.detection.detectionId).Nodup := by
  refine ⟨fun f hf f' hf' c hc c' hc' => ?_, fun f hf hrecords => (run_found hs h hf).distinct hinj hrecords⟩
  have hid := sameOrigin_iff hinj (run_found hs h hf) (run_found hs' h' hf') hc hc'
  refine ⟨hid, ?_⟩
  rw [← hid, Containment.receiptKey, Containment.receiptKey, String.append_right_inj]

namespace Sample

/-- What the ids of the sample are made of. -/
def idTexts : List String :=
  ["tx-events:0:0:fraud_burst:", "tx-events:0:1:replay_attack:", "tx-events:0:1:fraud_burst:"]

/-- The sample, with a text of its own for every other id. -/
def idRuntime : Runtime :=
  { runtime with uuid5 := fun text => if text ∈ idTexts then runtime.uuid5 text else "?" ++ text }

theorem idRuntime_injective : Function.Injective idRuntime.uuid5 := by
  have hknown : ∀ x ∈ idTexts, ∀ y ∈ idTexts, runtime.uuid5 x = runtime.uuid5 y → x = y := by
    decide
  have hother : ∀ x ∈ idTexts, ∀ y, runtime.uuid5 x ≠ "?" ++ y := by
    intro x hx y
    have hdiffer : ∀ x ∈ idTexts, Incomparable (runtime.uuid5 x) "?" := by decide
    have hne := append_ne_of_incomparable (hdiffer x hx) "" y
    rwa [String.append_empty] at hne
  intro x y h
  simp only [idRuntime] at h
  split at h <;> rename_i hx <;> split at h <;> rename_i hy
  · exact hknown x hx y hy h
  · exact absurd h (hother x hx y)
  · exact absurd h.symm (hother y hy x)
  · exact (String.append_right_inj "?").mp h

/-- The busy state, with nothing under way. -/
def busyStream : Stream := ⟨busy, fun _ => none⟩

/-- The same after a decision on `e1`. -/
def decidedStream : Stream := ⟨(Engine.decide idRuntime {} 0 call (transaction "e1") busy).2, fun _ => none⟩

/-- The ids that a batch finds. -/
def foundIds (now : ℕ) (records : List DecodedRecord) (s : Stream) : Option (List String) :=
  ((candidates idRuntime {} now (validateRecords idRuntime {} 0 records).1 s.db).toOption).map
    (·.map (·.detectionId))

/-- A batch on its own. -/
theorem run_batch {s : Stream} (hs : s.Sound) (hi : s.batches 0 = none) {now : ℕ} {records : List DecodedRecord}
    {ids : List String} (h : foundIds now records s = some ids) :
    ∃ ls t f, Run (StreamStep idRuntime) s ls t ∧ some f ∈ ls ∧ f.records = records ∧
      f.candidates.map (fun c => c.detection.detectionId) = ids := by
  obtain ⟨cands, hcands, rfl⟩ := Option.map_eq_some_iff.mp h
  obtain ⟨ls, f, hrun, hf, hrecords, hfound⟩ := stream_handleBatch hs hi (toOption_eq_some.mp hcands)
  refine ⟨ls, _, f, hrun, hf, hrecords, ?_⟩
  rw [← hfound, List.map_map]
  rfl

theorem busy_initial : busyStream.Initial where
  batches _ := rfl
  results e := by
    have hne : resultKey e ≠ burstKey "u1" :=
      append_ne_of_incomparable (p := resultKeyPrefix) (q := burstKeyPrefix) (by decide) _ _
    have hnone : busy (resultKey e) = none := if_neg hne
    exact congrArg payload hnone

theorem found_direct : foundIds 0 [(record 0 "e1").record] busyStream =
    some ["det-burst-75288443-4b74-50b3-9c47-6c87f3524cbe"] := by
  decide +kernel

theorem found_prescored : foundIds 1000 [(record 0 "e1").record, (record 1 "e2").record] decidedStream =
    some ["det-burst-75288443-4b74-50b3-9c47-6c87f3524cbe", "det-replay-bc0af244-ca87-52ce-9994-83efabf5284a",
      "det-burst-21fd9e8a-5615-5f69-881a-b4713f357fea"] := by
  decide +kernel

end Sample

section

open Sample

/-- The burst of `e1`, found by the detector in one run and read from the decision, in a batch with another
record, in the other. -/
theorem detection_identity_prescored :
    ∃ ls t f ls' t' f', Run (StreamStep idRuntime) busyStream ls t ∧ Run (StreamStep idRuntime) busyStream ls' t' ∧
      some f ∈ ls ∧ some f' ∈ ls' ∧
      f.candidates.map (fun c => c.detection.detectionId) = ["det-burst-75288443-4b74-50b3-9c47-6c87f3524cbe"] ∧
      f'.candidates.map (fun c => c.detection.detectionId) =
        ["det-burst-75288443-4b74-50b3-9c47-6c87f3524cbe", "det-replay-bc0af244-ca87-52ce-9994-83efabf5284a",
          "det-burst-21fd9e8a-5615-5f69-881a-b4713f357fea"] ∧
      ∀ c ∈ f.candidates, ∀ c' ∈ f'.candidates,
        c.detection.detectionId = c'.detection.detectionId ↔ c.SameOrigin c' := by
  have hsound := busy_initial.sound
  obtain ⟨ls, t, f, hrun, hf, -, hids⟩ := run_batch hsound rfl found_direct
  obtain ⟨ls₁, hdecide⟩ : ∃ ls, Run (StreamStep idRuntime) busyStream ls decidedStream := stream_decide _ _ _ _
  have hsound₁ : decidedStream.Sound := hdecide.invariant hsound fun _ _ _ hs hstep => (hs.step hstep).1
  obtain ⟨ls₂, t', f', hbatch, hf', -, hids'⟩ := run_batch hsound₁ rfl found_prescored
  have hrun' := hdecide.append hbatch
  have hf' := List.mem_append_right ls₁ hf'
  have hiff := (detection_identity idRuntime_injective busy_initial busy_initial hrun hrun').1 f hf f' hf'
  exact ⟨ls, t, f, _, t', f', hrun, hrun', hf, hf', hids, hids', fun c hc c' hc' => (hiff c hc c' hc').1⟩

end

end Rtace
