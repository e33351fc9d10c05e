import Rtace.Detection.Retry

/-!
# What the pipeline produces

The shape of every detection that `handle_batch` can emit, whatever Redis holds: which types a transaction
and a login can lead to, whose they are, and what a credential-stuffing detection says about its count.
-/

namespace Rtace

open Lib Redis

/-- What the pipeline can find in a transaction. -/
structure TxFinding (tx : TransactionEvent) (d : DetectionEvent) : Prop where
  type : d.detectionType ∈ txTypes
  userId : d.userId = tx.userId
  ipAddress : d.ipAddress = none

/-- What the pipeline can find in a login: one of the two scopes, above its threshold. -/
def AuthFinding (cfg : RedisConfig) (a : AuthEvent) (d : DetectionEvent) : Prop :=
  ∃ count, stuffingDetection cfg a "user" count cfg.authFailUserThreshold = some d ∨
    stuffingDetection cfg a "ip" count cfg.authFailIpThreshold = some d

/-- What the pipeline can find in an event. -/
def Event.Finding (cfg : RedisConfig) : Event → DetectionEvent → Prop
  | .tx e => TxFinding e
  | .auth e => AuthFinding cfg e

/-- A detection as the pipeline emits it. -/
def Produced (rt : Runtime) (cfg : RedisConfig) (d : DetectionEvent) : Prop :=
  ∃ e ref d₀, Event.Finding cfg e d₀ ∧ d = assignStableId rt ref d₀

/-- What a credential-stuffing detection of one scope says. -/
structure Stuffing (cfg : RedisConfig) (d : DetectionEvent) (scope : String) (threshold : ℤ) : Prop where
  type : d.detectionType = "credential_stuffing"
  scope : d.detail "scope" = some (.str scope)
  ipAddress : d.ipAddress.isSome
  count : ∃ count : ℕ, threshold < count ∧ d.detail "count_in_window" = some (.num (.num count))

theorem TxFinding.scopedIp {tx : TransactionEvent} {d : DetectionEvent} (h : TxFinding tx d) : d.scopedIp = none := by
  unfold DetectionEvent.scopedIp
  rw [h.ipAddress]
  split
  · rename_i hnone
    cases hnone
  · rfl

theorem stuffing_of_detection {cfg : RedisConfig} {a : AuthEvent} {scope : String} {count : ℕ} {threshold : ℤ}
    {d : DetectionEvent} (h : stuffingDetection cfg a scope count threshold = some d) :
    Stuffing cfg d scope threshold := by
  unfold stuffingDetection at h
  split at h
  · rename_i hcount
    cases h
    exact ⟨rfl, rfl, rfl, count, hcount, rfl⟩
  · cases h

/-- A produced detection is about a transaction, or is credential stuffing of one of the two scopes. -/
theorem Produced.cases {rt : Runtime} {cfg : RedisConfig} {d : DetectionEvent} (h : Produced rt cfg d) :
    (d.detectionType ∈ txTypes ∧ d.scopedIp = none) ∨ Stuffing cfg d "user" cfg.authFailUserThreshold ∨
      Stuffing cfg d "ip" cfg.authFailIpThreshold := by
  obtain ⟨e, ref, d₀, hfinding, rfl⟩ := h
  cases e with
  | tx tx =>
      have hfinding : TxFinding tx d₀ := hfinding
      exact Or.inl ⟨hfinding.type, hfinding.scopedIp⟩
  | auth a =>
      -- the stable id is all that changes
      obtain ⟨count, h | h⟩ := hfinding
      · obtain ⟨htype, hscope, hip, hcount⟩ := stuffing_of_detection h
        exact Or.inr (Or.inl ⟨htype, hscope, hip, hcount⟩)
      · obtain ⟨htype, hscope, hip, hcount⟩ := stuffing_of_detection h
        exact Or.inr (Or.inr ⟨htype, hscope, hip, hcount⟩)

/-- The types of produced detections. -/
def producedTypes : List String := "credential_stuffing" :: txTypes

theorem Produced.type_mem {rt : Runtime} {cfg : RedisConfig} {d : DetectionEvent} (h : Produced rt cfg d) :
    d.detectionType ∈ producedTypes := by
  rcases h.cases with ⟨htype, -⟩ | h | h
  · exact List.mem_cons_of_mem _ htype
  · rw [h.type]
    exact List.mem_cons_self
  · rw [h.type]
    exact List.mem_cons_self

/-- No type with its colon extends another. -/
theorem producedTypes_incomparable : ∀ t ∈ producedTypes, ∀ t' ∈ producedTypes,
    t = t' ∨ Incomparable (t ++ ":") (t' ++ ":") := by
  decide

section

variable {rt : Runtime} {kafka : KafkaConfig} {cfg : RedisConfig} {now : ℕ}

theorem AboutTx.finding {tx : TransactionEvent} {d : DetectionEvent} (h : AboutTx tx d) : TxFinding tx d :=
  ⟨h.type, h.userId, h.ipAddress⟩

/-- The check of an item finds what can be found in its event. -/
theorem scan_finding {it : Item} {db : Db} {ds : List DetectionEvent} (h : (it.scan rt cfg now db).1 = .ok ds)
    {d : DetectionEvent} (hd : d ∈ ds) : it.event.Finding cfg d := by
  unfold Item.scan at h
  cases hev : it.event with
  | tx tx =>
      rw [hev] at h
      exact (scanTx_about h hd).finding
  | auth a =>
      simp only [hev, scanAuth] at h
      split at h
      · cases h
        cases hd
      split at h
      · cases h
      · cases h
        obtain ⟨o, ho, rfl⟩ := List.mem_filterMap.mp hd
        simp only [List.mem_cons, List.not_mem_nil, or_false] at ho
        rcases ho with ho | ho
        · exact ⟨_, Or.inl ho.symm⟩
        · exact ⟨_, Or.inr ho.symm⟩

/-- Every candidate of a batch is one the pipeline produces. -/
theorem scanned_produced {items : List Item} (hfresh : ∀ it ∈ items, it.Fresh) {db db' : Db}
    {ds : List DetectionEvent} (h : scanned rt cfg now items db = some (ds, db')) {d : DetectionEvent} (hd : d ∈ ds) :
    Produced rt cfg d := by
  induction items generalizing db ds with
  | nil =>
      cases h
      cases hd
  | cons it items ih =>
      rw [scanned_cons (hfresh it List.mem_cons_self)] at h
      obtain ⟨found, hfound, h⟩ := Option.bind_eq_some_iff.mp h
      obtain ⟨⟨rest, db₁⟩, hrest, heq⟩ := Option.map_eq_some_iff.mp h
      cases heq
      rcases List.mem_append.mp hd with hd | hd
      · obtain ⟨d₀, hd₀, rfl⟩ := List.mem_map.mp hd
        exact ⟨it.event, it.ref, d₀, scan_finding (toOption_eq_some.mp hfound) hd₀, rfl⟩
      · exact ih (fun it hit => hfresh it (List.mem_cons_of_mem _ hit)) hrest hd

/-- What the cooldown lets through is among its candidates. -/
theorem mem_of_mem_filterCooledDown {ds : List DetectionEvent} {db : Db} {d : DetectionEvent}
    (h : d ∈ (filterCooledDown cfg now ds db).1.1) : d ∈ ds := by
  unfold filterCooledDown at h
  split at h
  · cases h
  split at h
  · exact h
  · obtain ⟨x, hx, rfl⟩ := List.mem_map.mp h
    exact (List.of_mem_zip (List.mem_filter.mp hx).1).1

/-- A successful call: its candidates, the keyspace after the checks, and what the cooldown lets through. -/
theorem handleBatch_scanned {records : List DecodedRecord} {db db' : Db} {audits : List BlockedAudit}
    {r : BatchResult} (h : handleBatch rt kafka cfg now records db = (⟨audits, .ok r⟩, db')) :
    ∃ cands F, candidates rt cfg now (validateRecords rt kafka 0 records).1 db = .ok cands ∧
      scanned rt cfg now (validateRecords rt kafka 0 records).1 db = some (cands, F) ∧
      filterCooledDown cfg now cands F = ((r.emitted, r.claimedCooldownKeys), db') := by
  obtain ⟨its, F, hana, hcool, -⟩ := handleBatch_eq_ok.mp h
  refine ⟨collectCandidates rt its, F, ?_, ?_, hcool⟩
  · obtain ⟨its', hits, heq⟩ := Option.map_eq_some_iff.mp hana
    obtain rfl : its' = its := congrArg (·.2.1) heq
    rw [candidates, toOption_eq_some.mp hits]
    rfl
  · rw [scanned, hana]
    rfl

/-- What a call emits is among its candidates. -/
theorem mem_candidates_of_emitted {ds : List DetectionEvent} {F db' : Db} {r : BatchResult}
    (h : filterCooledDown cfg now ds F = ((r.emitted, r.claimedCooldownKeys), db')) {d : DetectionEvent}
    (hd : d ∈ r.emitted) : d ∈ ds := by
  have hcand : d ∈ (filterCooledDown cfg now ds F).1.1 := by
    rwa [h]
  exact mem_of_mem_filterCooledDown hcand

/-- Every detection that `handle_batch` emits is one the pipeline produces. -/
theorem handleBatch_produced {records : List DecodedRecord} {db db' : Db} {audits : List BlockedAudit}
    {r : BatchResult} (h : handleBatch rt kafka cfg now records db = (⟨audits, .ok r⟩, db'))
    {d : DetectionEvent} (hd : d ∈ r.emitted) : Produced rt cfg d := by
  obtain ⟨cands, F, -, hscanned, hcool⟩ := handleBatch_scanned h
  exact scanned_produced (validateRecords_fresh rt kafka 0 records) hscanned (mem_candidates_of_emitted hcool hd)

end

end Rtace
