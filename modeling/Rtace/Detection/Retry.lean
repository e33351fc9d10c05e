import Rtace.Detection.NoLoss

/-!
# Retrying a batch

After a failed delivery the engine releases the cooldown it claimed and handles the batch again, on the
windows and sessions that the batch itself has left. Replays and decisions of the decision service come
out alike; a burst, a geo anomaly or a credential-stuffing finding may move to another record. What is
emitted is, for each free cooldown key, the first sighting of the batch, so the retry emits the same
detections exactly if these first sightings do not move.
-/

namespace Rtace

open Lib Redis

/-! ## Sightings -/

/-- A finding as the cooldown and its readers see it: cooldown key and stable id. -/
structure Sighting where
  key : String
  id : String
  deriving DecidableEq

/-- The sighting that a detection is. -/
def DetectionEvent.sighting (d : DetectionEvent) : Sighting := ⟨cooldownKey d, d.detectionId⟩

namespace Item

/-- The check of an item. -/
def scan (rt : Runtime) (cfg : RedisConfig) (now : ℕ) (it : Item) : Cmd (Except PyError (List DetectionEvent)) :=
  match it.event with
  | .tx tx => scanTx rt cfg now tx it.ref
  | .auth a => scanAuth rt cfg now a

/-- The keyspace it leaves. -/
def advance (rt : Runtime) (cfg : RedisConfig) (now : ℕ) (it : Item) (db : Db) : Db := (it.scan rt cfg now db).2

/-- An item as validation makes it. -/
def Fresh (it : Item) : Prop := it = { event := it.event, ref := it.ref }

end Item

/-- The keyspace that the checks of a batch leave. -/
def advanceAll (rt : Runtime) (cfg : RedisConfig) (now : ℕ) : List Item → Db → Db
  | [], db => db
  | it :: its, db => advanceAll rt cfg now its (it.advance rt cfg now db)

section Single

variable {rt : Runtime} {cfg : RedisConfig} {now : ℕ}

/-- Phases A to C on one item. -/
theorem analyse_item (rt : Runtime) (cfg : RedisConfig) (now : ℕ) {it : Item} (hit : it.Fresh) (db : Db) :
    (analyse rt cfg now [it] db).2 = it.advance rt cfg now db ∧
      candidates rt cfg now [it] db = (it.scan rt cfg now db).1.map (List.map (assignStableId rt it.ref)) := by
  rw [hit]
  cases hev : it.event with
  | tx tx => exact analyse_tx rt cfg now tx it.ref db
  | auth a => exact analyse_auth rt cfg now a it.ref db

/-- The stable id is not part of the cooldown key. -/
theorem cooldownKey_assignStableId (ref : String) (d : DetectionEvent) :
    cooldownKey (assignStableId rt ref d) = cooldownKey d := rfl

end Single

/-! ## A batch -/

section Batch

variable {rt : Runtime} {cfg : RedisConfig} {now : ℕ}

theorem validateRecords_fresh (rt : Runtime) (kafka : KafkaConfig) (i : ℕ) (records : List DecodedRecord) :
    ∀ it ∈ (validateRecords rt kafka i records).1, it.Fresh := by
  induction records generalizing i with
  | nil => exact fun it hit => absurd hit List.not_mem_nil
  | cons r rs ih =>
      intro it hit
      simp only [validateRecords] at hit
      split at hit
      · rcases List.mem_cons.mp hit with rfl | hit
        · rfl
        · exact ih _ it hit
      · exact ih _ it hit

/-- The candidates of a successful analysis, and the keyspace it leaves. -/
def scanned (rt : Runtime) (cfg : RedisConfig) (now : ℕ) (items : List Item) (db : Db) :
    Option (List DetectionEvent × Db) :=
  (analysis rt cfg now items db).map fun (_, its, db') => (collectCandidates rt its, db')

/-- The analysis of a batch is the check of its first item, and the analysis of the rest. -/
theorem scanned_cons {it : Item} (hit : it.Fresh) (its : List Item) (db : Db) :
    scanned rt cfg now (it :: its) db =
      (it.scan rt cfg now db).1.toOption.bind fun ds =>
        (scanned rt cfg now its (it.advance rt cfg now db)).map fun (rest, db') =>
          (ds.map (assignStableId rt it.ref) ++ rest, db') := by
  obtain ⟨hdb, hcands⟩ := analyse_item rt cfg now hit db
  rw [scanned, ← List.singleton_append, analysis_append]
  -- the items of the first analysis carry what the check found
  have hcands := congrArg Except.toOption hcands
  simp only [candidates, toOption_map] at hcands
  cases hits : (analyse rt cfg now [it] db).1.2.toOption with
  | none =>
      rw [hits, Option.map_none, eq_comm, Option.map_eq_none_iff] at hcands
      rw [hcands, analysis, hits]
      rfl
  | some its' =>
      rw [hits, Option.map_some, eq_comm, Option.map_eq_some_iff] at hcands
      obtain ⟨ds, hds, hcollect⟩ := hcands
      rw [hds, analysis, hits]
      simp only [Option.map_some, Option.bind_some, Option.map_map, scanned, hdb]
      refine Option.map_congr fun out _ => ?_
      obtain ⟨audits', its'', db''⟩ := out
      simp only [Function.comp_apply, collectCandidates, List.flatMap_append] at hcollect ⊢
      rw [← hcollect]

/-- What a successful analysis reports, and the keyspace it leaves. -/
def reported (rt : Runtime) (cfg : RedisConfig) (now : ℕ) (items : List Item) (db : Db) :
    Option (List Sighting × Db) :=
  (analysis rt cfg now items db).map fun (_, its, db') =>
    ((collectCandidates rt its).map DetectionEvent.sighting, db')

end Batch

/-! ## The second attempt -/

/-- The keys whose detectors depend on a window or on the session. -/
def windowKeys : Set String :=
  {k | ∃ type ∈ ["geo_velocity_anomaly", "fraud_burst", "credential_stuffing"], ∃ subject,
    k = cooldownKeyPrefix ++ (type ++ ":" ++ subject)}

/-- From `d` to `e` the rules and the stored decisions are the same, and no stored reference is lost. -/
structure Later (d e : Db) : Prop where
  rules : ∀ k ∈ readOnlyKeys, e k = d k
  refs : ∀ hash p, storedRef d (replayKey hash) = some p → storedRef e (replayKey hash) = some p

namespace Later

variable {rt : Runtime} {cfg : RedisConfig} {now : ℕ} {d e f : Db}

theorem refl (d : Db) : Later d d := ⟨fun _ _ => rfl, fun _ _ h => h⟩

theorem trans (h : Later d e) (h' : Later e f) : Later d f :=
  ⟨fun k hk => (h'.rules k hk).trans (h.rules k hk), fun hash p hp => h'.refs hash p (h.refs hash p hp)⟩

theorem advance (rt : Runtime) (cfg : RedisConfig) (now : ℕ) (it : Item) (d : Db) :
    Later d (it.advance rt cfg now d) := by
  unfold Item.advance Item.scan
  cases it.event with
  | tx tx =>
      refine ⟨fun k hk => scanTx_frame rt cfg now tx it.ref d
        (Set.disjoint_right.mp detectionKeys_disjoint_readOnlyKeys hk), fun hash p hp => ?_⟩
      simp only [scanTx]
      split
      · exact hp
      split
      · exact hp
      rename_i ts _
      by_cases hkey : replayKey hash = (txKeys rt tx).replay
      · rw [hkey] at hp ⊢
        rw [storedRef_txCheck _ _ _ _ (txKeys_distinct rt tx), hp]
        rfl
      · rw [storedRef, txCheck_replay_frame hkey]
        exact hp
  | auth a =>
      refine ⟨fun k hk => scanAuth_frame rt cfg now a d fun h => ?_, fun hash p hp => ?_⟩
      · refine Set.disjoint_right.mp detectionKeys_disjoint_readOnlyKeys hk ?_
        rcases h with rfl | rfl
        · exact mem_keyFamilies (by simp) _
        · exact mem_keyFamilies (by simp) _
      · rw [storedRef, scanAuth_frame rt cfg now a d (replayKey_notMem_failKeys hash a)]
        exact hp

theorem advanceAll (items : List Item) (d : Db) : Later d (advanceAll rt cfg now items d) := by
  induction items generalizing d with
  | nil => exact refl d
  | cons it items ih => exact (Later.advance rt cfg now it d).trans (ih _)

end Later

section Again

variable {rt : Runtime} {cfg : RedisConfig} {now now' : ℕ} {d e : Db}

/-- The status of a delivery whose reference is stored: a first delivery becomes a redelivery, and
nothing else changes. -/
theorem replayStatusOf_again (stored : Option Payload) (a : TxArgs) {status : ReplayStatus}
    (h : status = .prescored ∨ status = .replay) :
    replayStatusOf (some (stored.getD (.text a.recordRef))) a = status ↔ replayStatusOf stored a = status := by
  cases stored with
  | none => rcases h with rfl | rfl <;> simp [replayStatusOf, replayVerdict]
  | some p => rfl

/-- The keys of `windowKeys` set aside, the two lists report alike. -/
def AlikeOutside (l l' : List Sighting) : Prop :=
  ∀ k ∉ windowKeys, l'.filter (·.key = k) = l.filter (·.key = k)

theorem AlikeOutside.append {l₁ l₁' l₂ l₂' : List Sighting} (h₁ : AlikeOutside l₁ l₁')
    (h₂ : AlikeOutside l₂ l₂') : AlikeOutside (l₁ ++ l₂) (l₁' ++ l₂') := by
  intro k hk
  rw [List.filter_append, List.filter_append, h₁ k hk, h₂ k hk]

end Again

/-! ## What is emitted -/

/-- A successful call: a successful analysis, and what the cooldown lets through. -/
theorem handleBatch_eq_ok {rt : Runtime} {kafka : KafkaConfig} {cfg : RedisConfig} {now : ℕ}
    {records : List DecodedRecord} {db db' : Db} {audits : List BlockedAudit} {r : BatchResult} :
    handleBatch rt kafka cfg now records db = (⟨audits, .ok r⟩, db') ↔
      ∃ its F, analysis rt cfg now (validateRecords rt kafka 0 records).1 db = some (audits, its, F) ∧
        filterCooledDown cfg now (collectCandidates rt its) F = ((r.emitted, r.claimedCooldownKeys), db') ∧
        r.failures = (validateRecords rt kafka 0 records).2 := by
  rw [← succeeded_eq_some, succeeded_handleBatch, succeeded_runItems]
  cases analysis rt cfg now (validateRecords rt kafka 0 records).1 db with
  | none => simp
  | some out =>
      obtain ⟨audits', its, F⟩ := out
      obtain ⟨emitted, failures, claimed⟩ := r
      simp only [Option.map_some, Option.some.injEq, Prod.mk.injEq, BatchResult.mk.injEq]
      constructor
      · rintro ⟨rfl, ⟨rfl, rfl, rfl⟩, rfl⟩
        exact ⟨its, F, ⟨rfl, rfl, rfl⟩, rfl, rfl⟩
      · rintro ⟨_, _, ⟨rfl, rfl, rfl⟩, hc, rfl⟩
        rw [hc]
        exact ⟨rfl, ⟨rfl, rfl, rfl⟩, rfl⟩

/-- The checks of a batch leave the cooldown keys alone. -/
theorem analysis_cooldown {rt : Runtime} {cfg : RedisConfig} {now : ℕ} {items its : List Item} {db F : Db}
    {audits : List BlockedAudit} (h : analysis rt cfg now items db = some (audits, its, F)) {k : String}
    (hk : k ∈ cooldownKeys) : F k = db k := by
  obtain ⟨_, -, heq⟩ := Option.map_eq_some_iff.mp h
  obtain rfl : (analyse rt cfg now items db).2 = F := congrArg (·.2.2) heq
  exact analyse_cooldown rt cfg now items db hk

/-! ## The retry -/

/-- What the cooldown lets through of a list of sightings. -/
def Emits (cfg : RedisConfig) (db : Db) (l : List Sighting) (s : Sighting) : Prop :=
  if 0 < cfg.detectionCooldownSeconds then db s.key = none ∧ l.find? (·.key = s.key) = some s else s ∈ l

theorem Emits.mem {cfg : RedisConfig} {db : Db} {l : List Sighting} {s : Sighting} (h : Emits cfg db l s) :
    s ∈ l := by
  unfold Emits at h
  split at h
  · exact List.mem_of_find?_eq_some h.2
  · exact h

theorem mem_ids {ds : List DetectionEvent} {id : String} :
    id ∈ ds.map (·.detectionId) ↔ ∃ s ∈ ds.map DetectionEvent.sighting, s.id = id := by
  simp [DetectionEvent.sighting]

namespace Sample

/-- Two transactions of `u1` in one batch. -/
def batch : List DecodedRecord := [(record 0 "e1").record, (record 1 "e2").record]

/-- One attempt at the batch. -/
def attempt (db : Db) : BatchRun × Db := handleBatch runtime {} {} 0 batch db

/-- The keyspace in which the retry starts. -/
def released (db : Db) : Db :=
  match succeeded (attempt db) with
  | some (_, r, db') => (releaseCooldown r.claimedCooldownKeys db').2
  | none => db

end Sample

section

open Sample

end

end Rtace
