import Rtace.Containment.Linear
import Rtace.Detection.Produced

/-!
# What suppression loses

The cooldown suppresses a detection while an earlier one with the same type and subject holds the key. The
subject of an IP-scope detection is the address, but its plan also quarantines the user it names, and a geo
anomaly escalates when a step-up is pending: so the suppressed detection may have had something to add.
This module says exactly when it had not.
-/

namespace Rtace.Containment

open Lib Redis

/-- The keys of the enforcement rules. -/
def ruleKeys : Set String := keyFamilies [quarantineKeyPrefix, stepUpKeyPrefix, ipBlockKeyPrefix]

/-- The key exists. -/
def Live (db : Db) (k : String) : Prop := (db k).isSome

/-- The detection has a receipt. -/
def Applied (db : Db) (d : DetectionEvent) : Prop := (payload (db (receiptKey d.detectionId))).isSome

instance (db : Db) (k : String) : Decidable (Live db k) := inferInstanceAs (Decidable (_ = _))

instance (db : Db) (d : DetectionEvent) : Decidable (Applied db d) := inferInstanceAs (Decidable (_ = _))

/-- Applying `d` after `d'` leaves the same live rules as applying `d'` alone. -/
def LosesNothing (cfg : RedisConfig) (now now' : ℕ) (d' d : DetectionEvent) (db : Db) : Prop :=
  ∀ k ∈ ruleKeys, Live (applyContainment cfg now' d (applyContainment cfg now d' db).2).2 k ↔
    Live (applyContainment cfg now d' db).2 k

/-- `d` has nothing to add to `d'`: they have the same id, or `d` has a receipt, or the rules of `d` are in
force or are those that `d'` sets now. A geo anomaly after another one that is applied now escalates, unless
the other one did; after one that was applied before, its step-up may be gone as well. -/
def Redundant (db : Db) (d' d : DetectionEvent) : Prop :=
  d.detectionId = d'.detectionId ∨ Applied db d ∨
    if d.detectionType = "geo_velocity_anomaly" then
      if Applied db d' then Live db (stepUpKey d.userId) ∧ Live db (quarantineKey d.userId)
      else Live db (stepUpKey d.userId) ∨ Live db (quarantineKey d.userId)
    else
      (Live db (quarantineKey d.userId) ∨ (¬ Applied db d' ∧ d.userId = d'.userId)) ∧
        ∀ ip ∈ d.scopedIp, Live db (ipBlockKey ip) ∨ ¬ Applied db d'

/-! ## The keys of a plan -/

/-- The rule keys a plan writes, by type. -/
theorem plan_keys_geo {cfg : RedisConfig} {d : DetectionEvent} (h : d.detectionType = "geo_velocity_anomaly")
    (pending : Bool) : (plan cfg d pending).2.map Prod.fst =
      stepUpKey d.userId :: if pending then [quarantineKey d.userId] else [] := by
  cases pending with
  | true => simp [plan, h]
  | false => simp [plan, h]

/-- An IP-scope detection with an address. -/
theorem scopedIp_eq_some {d : DetectionEvent} {ip : String} :
    d.scopedIp = some ip ↔ d.detail "scope" = some (.str "ip") ∧ nonEmptyIp d = some ip := by
  unfold DetectionEvent.scopedIp nonEmptyIp
  rw [Option.filter_eq_some_iff]
  split
  · rename_i ip' hscope hip
    rw [hscope, hip]
    split
    · rename_i hempty
      simp only [reduceCtorEq, true_and, Option.some.injEq, false_iff, not_and]
      rintro rfl
      simp [hempty]
    · rename_i hne
      simp only [Option.some.injEq, true_and]
      refine ⟨fun h => ⟨h, ?_⟩, fun h => h.1⟩
      subst h
      simpa using hne
  · rename_i hother
    simp only [reduceCtorEq, false_iff, not_and]
    intro hscope hip
    exact absurd hip (hother ip hscope)

/-- Credential stuffing quarantines the user, and blocks the address of an IP-scope detection. -/
theorem plan_stuffing (cfg : RedisConfig) {d : DetectionEvent} (htype : d.detectionType = "credential_stuffing")
    (pending : Bool) : plan cfg d pending =
      (.quarantine :: (d.scopedIp.map fun _ => .ipBlock).toList,
        (quarantineKey d.userId, cfg.quarantineTtlSeconds) ::
          (d.scopedIp.map fun ip => (ipBlockKey ip, cfg.ipBlockTtlSeconds)).toList) := by
  unfold plan
  rw [if_neg (by simp [htype]), if_pos htype]
  split
  · rename_i ip hdetail hip
    have hip' : d.scopedIp = some ip := by
      refine scopedIp_eq_some.mpr ⟨?_, hip⟩
      unfold DetectionEvent.detail
      cases hlookup : d.details.lookup "scope" with
      | none => simp [hlookup] at hdetail
      | some j => simpa [hlookup] using hdetail
    rw [hip']
    rfl
  · rename_i hother
    have hnone : d.scopedIp = none := by
      refine Option.eq_none_iff_forall_ne_some.mpr fun ip hip => ?_
      obtain ⟨hdetail, hip⟩ := scopedIp_eq_some.mp hip
      refine hother ip ?_ hip
      unfold DetectionEvent.detail at hdetail
      rw [hdetail]
      rfl
    rw [hnone]
    rfl

/-- Everything but a geo anomaly quarantines the user, and blocks the address of an IP-scope detection. -/
theorem plan_keys_other (cfg : RedisConfig) {d : DetectionEvent} (hknown : Known d.detectionType)
    (h : d.detectionType ≠ "geo_velocity_anomaly")
    (hscope : d.detectionType ≠ "credential_stuffing" → d.scopedIp = none) (pending : Bool) :
    (plan cfg d pending).2.map Prod.fst = quarantineKey d.userId :: (d.scopedIp.map ipBlockKey).toList := by
  simp only [Known, List.mem_cons, List.not_mem_nil, or_false] at hknown
  rcases hknown with htype | htype | htype | htype
  · simp [plan, htype, hscope]
  · simp [plan, htype, hscope]
  · rw [plan_stuffing cfg htype]
    cases d.scopedIp <;> rfl
  · exact absurd htype h

theorem plan_unknown {cfg : RedisConfig} {d : DetectionEvent} (h : ¬ Known d.detectionType) (pending : Bool) :
    (plan cfg d pending).2 = [] := by
  simp only [Known, List.mem_cons, List.not_mem_nil, or_false, not_or] at h
  simp [plan, h]

theorem receiptKey_notMem_ruleKeys (i : String) : receiptKey i ∉ ruleKeys := fun h =>
  Set.disjoint_left.mp (keyFamilies_disjoint (by decide)) h
    (mem_keyFamilies (List.mem_singleton.mpr rfl) i : receiptKey i ∈ keyFamilies [receiptKeyPrefix])

/-- The live rules after a call: those before it, and the plan of a detection without a receipt. -/
theorem applyContainment_live (cfg : RedisConfig) (now : ℕ) (d : DetectionEvent) (db : Db) {k : String}
    (hk : k ∈ ruleKeys) :
    Live (applyContainment cfg now d db).2 k ↔
      Live db k ∨ (¬ Applied db d ∧ k ∈ (plan cfg d (db (stepUpKey d.userId)).isSome).2.map Prod.fst) := by
  unfold Live Applied
  cases hp : payload (db (receiptKey d.detectionId)) with
  | some p => simp [applyContainment_of_receipt hp]
  | none =>
      by_cases hknown : Known d.detectionType
      · have hne := (plan_ne_nil_iff cfg d (db (stepUpKey d.userId)).isSome).mpr hknown
        rw [applyContainment_of_known hp hne]
        by_cases hmem : k ∈ (plan cfg d (db (stepUpKey d.userId)).isSome).2.map Prod.fst
        · simp [Option.isSome_iff_ne_none, writeAll_rule cfg now d _ db hmem, hmem]
        · have hframe : writtenKeys d (plan cfg d (db (stepUpKey d.userId)).isSome) k = false := by
            simp only [writtenKeys, decide_eq_false_iff_not, not_or]
            exact ⟨fun h => receiptKey_notMem_ruleKeys d.detectionId (h ▸ hk), hmem⟩
          rw [writeAll_frame cfg now d _ db hframe]
          simp [hmem]
      · have hnil : (plan cfg d (db (stepUpKey d.userId)).isSome).2 = [] := plan_unknown hknown _
        rw [applyContainment_of_unknown hp hknown, hnil]
        simp

/-- A call leaves a receipt of its detection, and the receipts of other detections alone. -/
theorem applied_applyContainment {cfg : RedisConfig} {now : ℕ} {d' d : DetectionEvent} {db : Db}
    (hknown : Known d'.detectionType) :
    Applied (applyContainment cfg now d' db).2 d ↔ d.detectionId = d'.detectionId ∨ Applied db d := by
  unfold Applied
  cases hp : payload (db (receiptKey d'.detectionId)) with
  | some p =>
      rw [applyContainment_of_receipt hp]
      refine ⟨Or.inr, ?_⟩
      rintro (h | h)
      · rw [h, hp]
        rfl
      · exact h
  | none =>
      rw [applyContainment_of_known hp ((plan_ne_nil_iff cfg d' _).mpr hknown)]
      by_cases hid : d.detectionId = d'.detectionId
      · rw [hid, writeAll_receipt _ _ _ _ _ (receiptKey_notMem_plan cfg d' _ _)]
        simp
      · have hframe : writtenKeys d' (plan cfg d' (db (stepUpKey d'.userId)).isSome) (receiptKey d.detectionId) =
            false := by
          simp only [writtenKeys, decide_eq_false_iff_not, not_or]
          refine ⟨fun h => hid ((String.append_right_inj receiptKeyPrefix).mp h), receiptKey_notMem_plan cfg d' _ _⟩
        rw [writeAll_frame _ _ _ _ _ hframe]
        simp [hid]

/-- A call adds no rule exactly if its detection has a receipt or its plan writes live keys only. -/
theorem losesNothing_iff_live {cfg : RedisConfig} {now now' : ℕ} {d' d : DetectionEvent} {db : Db} :
    LosesNothing cfg now now' d' d db ↔
      Applied (applyContainment cfg now d' db).2 d ∨
        ∀ k ∈ (plan cfg d ((applyContainment cfg now d' db).2 (stepUpKey d.userId)).isSome).2.map Prod.fst,
          Live (applyContainment cfg now d' db).2 k := by
  constructor
  · intro h
    refine or_iff_not_imp_left.mpr fun happlied k hk => ?_
    have hrule : k ∈ ruleKeys := plan_ruleKeys hk
    exact (h k hrule).mp ((applyContainment_live cfg now' d _ hrule).mpr (Or.inr ⟨happlied, hk⟩))
  · intro h k hrule
    rw [applyContainment_live cfg now' d _ hrule, or_iff_left_iff_imp]
    rintro ⟨happlied, hk⟩
    exact h.resolve_left happlied k hk

theorem quarantineKey_mem (u : String) : quarantineKey u ∈ ruleKeys := mem_keyFamilies (by simp) _

theorem stepUpKey_mem (u : String) : stepUpKey u ∈ ruleKeys := mem_keyFamilies (by simp) _

theorem ipBlockKey_mem (ip : String) : ipBlockKey ip ∈ ruleKeys := mem_keyFamilies (by simp) _

/-! ## Detections with the same cooldown key -/

/-- What two produced detections under one cooldown key have in common. -/
structure SameSubject (d' d : DetectionEvent) : Prop where
  known : Known d.detectionType
  type : d'.detectionType = d.detectionType
  /-- Only credential stuffing has an address. -/
  address : d.detectionType ≠ "credential_stuffing" → d'.scopedIp = none ∧ d.scopedIp = none
  userId : d.scopedIp = none → d'.scopedIp = none ∧ d'.userId = d.userId
  ip : ∀ ip ∈ d.scopedIp, ∃ ip' ∈ d'.scopedIp, ipBlockKey ip' = ipBlockKey ip

theorem known_of_produced {rt : Runtime} {cfg : RedisConfig} {d : DetectionEvent} (h : Produced rt cfg d) :
    Known d.detectionType := by
  have hmem := h.type_mem
  simp only [producedTypes, txTypes, List.mem_cons, List.not_mem_nil, or_false] at hmem
  simp only [Known, List.mem_cons, List.not_mem_nil, or_false]
  tauto

/-- Only credential stuffing has a scoped address. -/
theorem scopedIp_of_produced {rt : Runtime} {cfg : RedisConfig} {d : DetectionEvent} (h : Produced rt cfg d)
    (hne : d.detectionType ≠ "credential_stuffing") : d.scopedIp = none := by
  rcases h.cases with ⟨-, hnone⟩ | h | h
  · exact hnone
  · exact absurd h.type hne
  · exact absurd h.type hne

theorem sameSubject_of_cooldownKey {rt : Runtime} {cfg : RedisConfig} {d' d : DetectionEvent}
    (hd' : Produced rt cfg d') (hd : Produced rt cfg d) (h : cooldownKey d = cooldownKey d') : SameSubject d' d := by
  have hkey := (String.append_right_inj cooldownKeyPrefix).mp h
  have htype : d'.detectionType = d.detectionType := by
    rcases producedTypes_incomparable _ hd.type_mem _ hd'.type_mem with heq | hne
    · exact heq.symm
    · exact absurd hkey (append_ne_of_incomparable hne _ _)
  have hsubject : cooldownSubject d = cooldownSubject d' := by
    rw [htype] at hkey
    exact (String.append_right_inj (d.detectionType ++ ":")).mp hkey
  have hmixed : ∀ u ip : String, "ip:" ++ ip ≠ "user:" ++ u := fun u ip =>
    append_ne_of_incomparable (by decide) _ _
  refine ⟨known_of_produced hd, htype, fun hne => ?_, fun hip => ?_, fun ip hip => ?_⟩
  · exact ⟨scopedIp_of_produced hd' (htype ▸ hne), scopedIp_of_produced hd hne⟩
  · cases hip' : d'.scopedIp with
    | some ip' =>
        rw [cooldownSubject, cooldownSubject, hip, hip'] at hsubject
        exact absurd hsubject.symm (hmixed _ _)
    | none =>
        rw [cooldownSubject, cooldownSubject, hip, hip'] at hsubject
        exact ⟨rfl, ((String.append_right_inj "user:").mp hsubject).symm⟩
  · rw [Option.mem_def] at hip
    cases hip' : d'.scopedIp with
    | some ip' =>
        rw [cooldownSubject, cooldownSubject, hip, hip'] at hsubject
        refine ⟨ip', rfl, ?_⟩
        rw [ipBlockKey, ipBlockKey, (String.append_right_inj "ip:").mp hsubject]
    | none =>
        rw [cooldownSubject, cooldownSubject, hip, hip'] at hsubject
        exact absurd hsubject (hmixed _ _)

/-! ## When suppression loses nothing -/

section

variable {cfg : RedisConfig} {now now' : ℕ} {d' d : DetectionEvent} {db : Db}

/-- After `d'`, a second geo anomaly of the user has nothing to add exactly if its escalation is in force. -/
theorem live_plan_geo (hs : SameSubject d' d) (htype : d.detectionType = "geo_velocity_anomaly") :
    (∀ k ∈ (plan cfg d ((applyContainment cfg now d' db).2 (stepUpKey d.userId)).isSome).2.map Prod.fst,
        Live (applyContainment cfg now d' db).2 k) ↔
      if Applied db d' then Live db (stepUpKey d.userId) ∧ Live db (quarantineKey d.userId)
      else Live db (stepUpKey d.userId) ∨ Live db (quarantineKey d.userId) := by
  have huser : d'.userId = d.userId := (hs.userId (hs.address (by simp [htype])).2).2
  have hne : quarantineKey d.userId ≠ stepUpKey d.userId :=
    append_ne_of_incomparable (p := quarantineKeyPrefix) (q := stepUpKeyPrefix) (by decide) _ _
  have hstep := applyContainment_live cfg now d' db (stepUpKey_mem d.userId)
  have hquar := applyContainment_live cfg now d' db (quarantineKey_mem d.userId)
  rw [plan_keys_geo (hs.type.trans htype), huser] at hstep hquar
  have hstep' : Live (applyContainment cfg now d' db).2 (stepUpKey d.userId) ↔
      Live db (stepUpKey d.userId) ∨ ¬ Applied db d' := by
    rw [hstep]
    simp
  have hquar' : Live (applyContainment cfg now d' db).2 (quarantineKey d.userId) ↔
      Live db (quarantineKey d.userId) ∨ (¬ Applied db d' ∧ Live db (stepUpKey d.userId)) := by
    rw [hquar]
    simp [hne, Live]
  have hplan : (∀ k ∈ (plan cfg d ((applyContainment cfg now d' db).2 (stepUpKey d.userId)).isSome).2.map Prod.fst,
        Live (applyContainment cfg now d' db).2 k) ↔
      Live (applyContainment cfg now d' db).2 (stepUpKey d.userId) ∧
        (Live (applyContainment cfg now d' db).2 (stepUpKey d.userId) →
          Live (applyContainment cfg now d' db).2 (quarantineKey d.userId)) := by
    rw [plan_keys_geo htype]
    simp [Live]
  rw [hplan, hstep', hquar']
  by_cases happlied : Applied db d'
  · simp only [happlied, if_true, not_true_eq_false, or_false, false_and]
    exact and_congr_right fun hpending => ⟨fun h => h hpending, fun h _ => h⟩
  · simp only [happlied, if_false, not_false_eq_true, or_true, true_and, true_imp_iff]
    exact or_comm

/-- After `d'`, another detection has nothing to add exactly if its user and its address are held. -/
theorem live_plan_other (hs : SameSubject d' d) (htype : d.detectionType ≠ "geo_velocity_anomaly") :
    (∀ k ∈ (plan cfg d ((applyContainment cfg now d' db).2 (stepUpKey d.userId)).isSome).2.map Prod.fst,
        Live (applyContainment cfg now d' db).2 k) ↔
      (Live db (quarantineKey d.userId) ∨ (¬ Applied db d' ∧ d.userId = d'.userId)) ∧
        ∀ ip ∈ d.scopedIp, Live db (ipBlockKey ip) ∨ ¬ Applied db d' := by
  have hscope : d'.detectionType ≠ "credential_stuffing" → d'.scopedIp = none := fun h => (hs.address (hs.type ▸ h)).1
  have hkeys' := plan_keys_other cfg (hs.type ▸ hs.known) (hs.type ▸ htype) hscope
    (db (stepUpKey d'.userId)).isSome
  have hquar : Live (applyContainment cfg now d' db).2 (quarantineKey d.userId) ↔
      Live db (quarantineKey d.userId) ∨ (¬ Applied db d' ∧ d.userId = d'.userId) := by
    have hinj : quarantineKey d.userId = quarantineKey d'.userId ↔ d.userId = d'.userId :=
      String.append_right_inj quarantineKeyPrefix
    have hne : ∀ ip, ipBlockKey ip ≠ quarantineKey d.userId := fun ip =>
      append_ne_of_incomparable (p := ipBlockKeyPrefix) (q := quarantineKeyPrefix) (by decide) _ _
    rw [applyContainment_live cfg now d' db (quarantineKey_mem d.userId), hkeys']
    simp [hinj, hne]
  have hblock : ∀ ip ∈ d.scopedIp, Live (applyContainment cfg now d' db).2 (ipBlockKey ip) ↔
      Live db (ipBlockKey ip) ∨ ¬ Applied db d' := by
    intro ip hip
    obtain ⟨ip', hip', hsame⟩ := hs.ip ip hip
    rw [applyContainment_live cfg now d' db (ipBlockKey_mem ip), hkeys', ← hsame, Option.mem_def.mp hip']
    simp
  rw [plan_keys_other cfg hs.known htype fun h => (hs.address h).2, List.forall_mem_cons, hquar]
  refine and_congr_right fun _ => ?_
  cases hip : d.scopedIp with
  | none => simp
  | some ip =>
      rw [hip] at hblock
      simpa using hblock ip rfl

/-- Suppressing `d` because `d'` holds its cooldown key loses no rule exactly if `d` had nothing to add. -/
theorem suppression_iff_redundant {rt : Runtime} (now now' : ℕ) (db : Db) (hd' : Produced rt cfg d')
    (hd : Produced rt cfg d) (hkey : cooldownKey d = cooldownKey d') :
    LosesNothing cfg now now' d' d db ↔ Redundant db d' d := by
  have hs := sameSubject_of_cooldownKey hd' hd hkey
  rw [losesNothing_iff_live, applied_applyContainment (known_of_produced hd'), or_assoc, Redundant]
  refine or_congr Iff.rfl (or_congr Iff.rfl ?_)
  split
  · exact live_plan_geo hs ‹_›
  · exact live_plan_other hs ‹_›

end

end Rtace.Containment

/-! ## Two users behind one address -/

namespace Rtace.Sample

open Lib Redis Containment

/-- A failed login from an office address. -/
def login (eventId userId : String) : AuthEvent where
  eventId := eventId
  userId := userId
  ipAddress := "203.0.113.7"
  success := false
  timestamp := ⟨2024, 1, 1, 0, 0, 7, 0, some 0, by decide⟩

/-- Its document. -/
def loginValue (eventId userId : String) : Json :=
  .obj [("event_id", .str eventId), ("user_id", .str userId), ("ip_address", .str "203.0.113.7"),
    ("success", .bool false), ("timestamp", .str "2024-01-01T00:00:07+00:00")]

/-- The libraries on these documents. -/
def loginRuntime : Runtime :=
  { runtime with
    validateAuth := fun
      | .obj fs => match fs.lookup "event_id", fs.lookup "user_id" with
          | some (.str eventId), some (.str userId) => some (login eventId userId)
          | _, _ => none
      | _ => none
    uuid5 := fun
      | "auth-events:0:0:credential_stuffing:ip" => "486cd582-9e63-5ac2-b56a-6db01d8d419f"
      | "auth-events:0:1:credential_stuffing:ip" => "340c0c5b-583e-5912-a3da-780f6166452c"
      | identity => runtime.uuid5 identity }

/-- Fifty failures from the address in the last minute. -/
def office : Db := fun k =>
  if k = ipFailKey "203.0.113.7" then
    some ⟨.zset ⟨(List.range 50).map fun i => ("login" ++ toString i, 1704067190), by decide⟩, some 120000⟩
  else none

/-- Two more, of two users, in one batch. -/
def logins : List DecodedRecord :=
  [⟨"auth-events", 0, 0, loginValue "a1" "alice"⟩, ⟨"auth-events", 0, 1, loginValue "a2" "bob"⟩]

def aliceId : String := "det-cred-ip-486cd582-9e63-5ac2-b56a-6db01d8d419f"

def bobId : String := "det-cred-ip-340c0c5b-583e-5912-a3da-780f6166452c"

theorem candidates_logins :
    (candidates loginRuntime {} 0 (validateRecords loginRuntime {} 0 logins).1 office).toOption.map
        (List.map fun d => (d.detectionId, d.detectionType, d.userId, cooldownKey d)) =
      some [(aliceId, "credential_stuffing", "alice", "cooldown:credential_stuffing:ip:203.0.113.7"),
        (bobId, "credential_stuffing", "bob", "cooldown:credential_stuffing:ip:203.0.113.7")] := by
  decide +kernel

/-- The batch emits the first of them, and leaves no rule and no receipt. -/
theorem handled_logins :
    (succeeded (handleBatch loginRuntime {} {} 0 logins office)).map
        (fun out => (out.2.1.emitted.map (·.detectionId), (out.2.2 (receiptKey aliceId)).isNone,
          (out.2.2 (receiptKey bobId)).isNone, (out.2.2 (quarantineKey "bob")).isNone)) =
      some ([aliceId], true, true, true) := by
  decide +kernel

/-- The burst that the transaction `tx eventId` in the record `ref` is above the threshold with. -/
def burst (eventId ref : String) : DetectionEvent :=
  assignStableId runtime ref
    { detectionId := newDetectionId "burst"
      detectionType := "fraud_burst"
      severity := "high"
      userId := "u1"
      transactionId := eventId
      timestamp := .wallClock
      ipAddress := none
      details := [("count_in_window", .num (.num 21)), ("window_seconds", .num (.num 60)),
        ("threshold", .num (.num 20))] }

theorem produced_burst (eventId ref : String) : Produced runtime {} (burst eventId ref) :=
  ⟨.tx (tx eventId), ref, _, ⟨by simp [txTypes], rfl, rfl⟩, rfl⟩

end Rtace.Sample

namespace Rtace.Containment

open Lib Redis Rtace.Sample

/-- The batch finds a detection for each of the two users and emits the first one. -/
theorem logins_emitted :
    ∃ d' d audits r db, candidates loginRuntime {} 0 (validateRecords loginRuntime {} 0 logins).1 office = .ok [d', d] ∧
      handleBatch loginRuntime {} {} 0 logins office = (⟨audits, .ok r⟩, db) ∧ r.emitted = [d'] ∧
      (d'.detectionId = aliceId ∧ d'.detectionType = "credential_stuffing" ∧ d'.userId = "alice" ∧
        db (receiptKey aliceId) = none) ∧
      (d.detectionId = bobId ∧ d.detectionType = "credential_stuffing" ∧ d.userId = "bob" ∧
        db (receiptKey bobId) = none) ∧
      cooldownKey d = cooldownKey d' ∧ db (quarantineKey "bob") = none ∧
      ∀ x ∈ [d', d], Produced loginRuntime {} x := by
  obtain ⟨ds, hds, hmap⟩ := Option.map_eq_some_iff.mp candidates_logins
  obtain ⟨d', rest, rfl, hd', hrest⟩ := List.map_eq_cons_iff.mp hmap
  obtain ⟨d, rest, rfl, hd, hnil⟩ := List.map_eq_cons_iff.mp hrest
  obtain rfl := List.map_eq_nil_iff.mp hnil
  simp only [Prod.mk.injEq] at hd' hd
  obtain ⟨hid', htype', huser', hkey'⟩ := hd'
  obtain ⟨hid, htype, huser, hkey⟩ := hd
  obtain ⟨⟨audits, r, db⟩, hrun, hout⟩ := Option.map_eq_some_iff.mp handled_logins
  have hrun := succeeded_eq_some.mp hrun
  simp only [Prod.mk.injEq, Option.isNone_iff_eq_none] at hout
  obtain ⟨hemitted, hreceipt', hreceipt, hquarantine⟩ := hout
  obtain ⟨cands, F, hcands, hscanned, hcool⟩ := handleBatch_scanned hrun
  rw [hcands, toOption_ok, Option.some.injEq] at hds
  subst hds
  refine ⟨d', d, audits, r, db, hcands, hrun, ?_, ⟨hid', htype', huser', hreceipt'⟩, ⟨hid, htype, huser, hreceipt⟩,
    hkey.trans hkey'.symm, hquarantine,
    fun x hx => scanned_produced (validateRecords_fresh loginRuntime {} 0 logins) hscanned hx⟩
  -- what is emitted is a candidate, and its id says which one
  obtain ⟨x, hx, hidx⟩ := List.map_eq_singleton_iff.mp hemitted
  have hmem : x ∈ [d', d] := mem_candidates_of_emitted hcool (hx ▸ List.mem_singleton_self x)
  rcases List.mem_pair.mp hmem with rfl | rfl
  · exact hx
  · rw [hid] at hidx
    exact absurd hidx (by decide)

/-- The detection of `bob` is suppressed because the one of `alice` holds the cooldown of their address, and
nobody quarantines `bob`. -/
theorem suppression_loses_quarantine :
    ∃ d' d audits r db, candidates loginRuntime {} 0 (validateRecords loginRuntime {} 0 logins).1 office = .ok [d', d] ∧
      handleBatch loginRuntime {} {} 0 logins office = (⟨audits, .ok r⟩, db) ∧ r.emitted = [d'] ∧
      cooldownKey d = cooldownKey d' ∧ ¬ LosesNothing {} 0 0 d' d db := by
  obtain ⟨d', d, audits, r, db, hcands, hrun, hemitted, ⟨hid', -, huser', -⟩, ⟨hid, htype, huser, hreceipt⟩, hkey,
    hquarantine, hproduced⟩ := logins_emitted
  refine ⟨d', d, audits, r, db, hcands, hrun, hemitted, hkey, fun hloses => ?_⟩
  have hs : SameSubject d' d := sameSubject_of_cooldownKey (hproduced d' (by simp)) (hproduced d (by simp)) hkey
  rcases losesNothing_iff_live.mp hloses with happlied | hlive
  · have hknown : Known d'.detectionType := known_of_produced (hproduced d' (by simp))
    rw [applied_applyContainment hknown, hid, hid', Applied, hid, hreceipt] at happlied
    revert happlied
    decide
  · rw [live_plan_other hs (by rw [htype]; decide), huser, huser', Live, hquarantine] at hlive
    revert hlive
    simp

/-- Two bursts of one user: the second one has nothing to add. -/
theorem suppression_iff_redundant_burst :
    Produced runtime {} (burst "e1" "tx-events:0:0") ∧ Produced runtime {} (burst "e2" "tx-events:0:1") ∧
      (burst "e2" "tx-events:0:1").detectionId ≠ (burst "e1" "tx-events:0:0").detectionId ∧
      cooldownKey (burst "e2" "tx-events:0:1") = cooldownKey (burst "e1" "tx-events:0:0") ∧
      LosesNothing {} 0 0 (burst "e1" "tx-events:0:0") (burst "e2" "tx-events:0:1") fun _ => none := by
  refine ⟨produced_burst _ _, produced_burst _ _, by decide, by decide, ?_⟩
  refine (suppression_iff_redundant 0 0 _ (produced_burst _ _) (produced_burst _ _) (by decide)).mpr
    (Or.inr (Or.inr ?_))
  rw [if_neg (by decide)]
  exact ⟨Or.inr ⟨by simp [Applied, payload], rfl⟩, fun ip hip => by cases hip⟩

end Rtace.Containment
