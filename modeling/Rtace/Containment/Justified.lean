import Rtace.Containment.Escalation
import Rtace.Containment.Suppressed

/-!
# Live rules are justified

The detection pipeline and the containment engine over one Redis. The pipeline emits detections; any of
them may be delivered to any containment client, at any time, again and again. What a rule holds is then the
mark of an API override or the id of a detection that was emitted for its subject, and a quarantine for a geo
anomaly means that another anomaly of the user had set the step-up that was pending.

The receipt is what keeps an anomaly from escalating itself. It is written with the step-up and outlives
it, so as long as the step-up of an anomaly is there, another delivery of the anomaly stops at its receipt.
-/

namespace Rtace.Containment

open Lib Redis Rtace.Sample

/-- The detections that a call of `handle_batch` emits; one that raises emits none. -/
def emittedBy (run : BatchRun) : List DetectionEvent :=
  match run.result with
  | .ok r => r.emitted
  | .error _ => []

/-- A transaction that went through, with the step-up of its user just before it. -/
structure Application where
  detection : DetectionEvent
  actions : List ActionKind
  pending : Option Entry

/-- Redis with its containment clients, the detections emitted and the transactions so far. -/
structure Site where
  system : System
  emitted : List DetectionEvent
  applied : List Application

/-- The applications of a step, over the keyspace before it. -/
def Label.applications (db : Db) : Label → List Application
  | .exec d actions _ => [⟨d, actions, db (stepUpKey d.userId)⟩]
  | _ => []

/-- The keys of the receipts. -/
def receiptKeys : Set String := keyFamilies [receiptKeyPrefix]

/-- The site after the pipeline has emitted `ds` and left the keyspace `db`. -/
def Site.detected (s : Site) (ds : List DetectionEvent) (db : Db) : Site :=
  { s with system := { s.system with db := db }, emitted := s.emitted ++ ds }

/-- One step of the site. -/
inductive SiteStep (rt : Runtime) (cfg : RedisConfig) (s : Site) : Option Label → Site → Prop
  /-- A call of `handle_batch` on any records, undisturbed. -/
  | batch (kafka : KafkaConfig) (records : List DecodedRecord) :
      SiteStep rt cfg s none
        (s.detected (emittedBy (handleBatch rt kafka cfg s.system.now records s.system.db).1)
          (handleBatch rt kafka cfg s.system.now records s.system.db).2)
  /-- Any part of a pipeline whose commands interleave with those of others: it writes no rule and no
  receipt, and what it emits is what the detectors make of some event. -/
  | interleaved (ds : List DetectionEvent) (db : Db) (hds : ∀ d ∈ ds, Produced rt cfg d)
      (hdb : ∀ k ∈ ruleKeys ∪ receiptKeys, db k = s.system.db k) :
      SiteStep rt cfg s none (s.detected ds db)
  /-- A step of containment, of the API or of the clock. Calls are for emitted detections. -/
  | contain (l : Label) (t : System) (h : ContainStep cfg s.system l t)
      (hstart : ∀ d, l = .start d → d ∈ s.emitted) :
      SiteStep rt cfg s (some l)
        { s with system := t, applied := s.applied ++ l.applications s.system.db }

/-- The entry holds the id of the detection. -/
def NamedBy (d : DetectionEvent) (e : Entry) : Prop := e.val = .str (.text d.detectionId)

/-- The application met a step-up of user `u` that a different geo anomaly of `u` had set. -/
def Application.Escalates (s : Site) (u : String) (a : Application) : Prop :=
  ∃ e ∈ a.pending, ∃ a₀ ∈ s.applied, a₀.detection ∈ s.emitted ∧ GeoOf u a₀.detection ∧
    a₀.detection.detectionId ≠ a.detection.detectionId ∧ NamedBy a₀.detection e

/-- What is behind every live rule and every transaction. -/
structure Justified (cfg : RedisConfig) (s : Site) : Prop where
  quarantine : ∀ u e, s.system.db (quarantineKey u) = some e → ByApi e ∨
    ∃ a ∈ s.applied, a.detection ∈ s.emitted ∧ a.detection.userId = u ∧ NamedBy a.detection e ∧
      (a.detection.detectionType ∈ ["replay_attack", "fraud_burst", "credential_stuffing"] ∨
        a.detection.detectionType = "geo_velocity_anomaly" ∧ a.Escalates s u)
  stepUp : ∀ u e, s.system.db (stepUpKey u) = some e → ∃ d ∈ s.emitted, GeoOf u d ∧ NamedBy d e
  ipBlock : ∀ k e, s.system.db (ipBlockKeyPrefix ++ k) = some e → ByApi e ∨
    ∃ d ∈ s.emitted, NamedBy d e ∧ Stuffing cfg d "ip" cfg.authFailIpThreshold ∧
      ∃ ip, d.ipAddress = some ip ∧ sanitizeIpForKey ip = k
  /-- A user-scope detection never leads to an IP block. -/
  blocks : ∀ a ∈ s.applied, .ipBlock ∈ a.actions → a.detection.detail "scope" = some (.str "ip")
  /-- A geo anomaly never leads to a quarantine by itself. -/
  escalations : ∀ a ∈ s.applied, ∀ u, GeoOf u a.detection → .quarantine ∈ a.actions → a.Escalates s u

/-- Nothing is under way, nothing has been emitted, and no rule is in force. -/
structure Site.Initial (s : Site) : Prop where
  quiet : s.system.Quiet
  emitted : s.emitted = []
  applied : s.applied = []
  rules : ∀ k ∈ ruleKeys, s.system.db k = none

/-! ## Whose key a plan writes -/

section

variable {cfg : RedisConfig} {d : DetectionEvent} {pending : Bool}

theorem quarantineKey_inj {u v : String} : quarantineKey u = quarantineKey v ↔ u = v :=
  String.append_right_inj quarantineKeyPrefix

/-- A plan quarantines the user of its detection, and for a geo anomaly only if a step-up is pending. -/
theorem quarantineKey_mem_plan {u : String} (h : quarantineKey u ∈ (plan cfg d pending).2.map Prod.fst) :
    d.userId = u ∧ (d.detectionType ∈ ["replay_attack", "fraud_burst", "credential_stuffing"] ∨
      d.detectionType = "geo_velocity_anomaly" ∧ pending = true) := by
  have hs : ∀ v, quarantineKey u ≠ stepUpKey v := fun v => append_ne_of_incomparable (by decide) _ _
  have hb : ∀ ip, quarantineKey u ≠ ipBlockKey ip := fun ip => append_ne_of_incomparable (by decide) _ _
  unfold plan at h
  split at h
  · rename_i htype
    simp only [List.map_cons, List.map_nil, List.mem_singleton, quarantineKey_inj] at h
    exact ⟨h.symm, Or.inl (by rcases htype with htype | htype <;> simp [htype])⟩
  · split at h
    · rename_i htype
      refine ⟨?_, Or.inl (by simp [htype])⟩
      split at h
      · simpa [quarantineKey_inj, hb, eq_comm] using h
      · simpa [quarantineKey_inj, eq_comm] using h
    · split at h
      · rename_i htype
        cases pending with
        | true =>
            refine ⟨?_, Or.inr ⟨htype, rfl⟩⟩
            simpa [quarantineKey_inj, hs, eq_comm] using h
        | false => simp [hs] at h
      · simp at h

/-- Only credential stuffing blocks addresses. -/
theorem stuffing_of_ipBlock {k : String} (h : .ipBlock ∈ (plan cfg d pending).1 ∨
    ipBlockKeyPrefix ++ k ∈ (plan cfg d pending).2.map Prod.fst) : d.detectionType = "credential_stuffing" := by
  have hq : ∀ v, ipBlockKeyPrefix ++ k ≠ quarantineKey v := fun v => append_ne_of_incomparable (by decide) _ _
  have hs : ∀ v, ipBlockKeyPrefix ++ k ≠ stepUpKey v := fun v => append_ne_of_incomparable (by decide) _ _
  by_contra htype
  unfold plan at h
  rw [if_neg htype] at h
  split at h
  · simp [hq] at h
  · split at h
    · cases pending with
      | true => simp [hq, hs] at h
      | false => simp [hs] at h
    · simp at h

/-- A plan with a block is that of an IP-scope detection. -/
theorem scopedIp_of_ipBlock (h : .ipBlock ∈ (plan cfg d pending).1) : ∃ ip, d.scopedIp = some ip := by
  -- the key plays no part here
  rw [plan_stuffing cfg (stuffing_of_ipBlock (k := "") (Or.inl h))] at h
  cases hip : d.scopedIp with
  | none => simp [hip] at h
  | some ip => exact ⟨ip, rfl⟩

/-- The address a plan blocks is that of the detection. -/
theorem ipBlockKey_mem_plan {k : String} (h : ipBlockKeyPrefix ++ k ∈ (plan cfg d pending).2.map Prod.fst) :
    ∃ ip, d.scopedIp = some ip ∧ sanitizeIpForKey ip = k := by
  have hq : ipBlockKeyPrefix ++ k ≠ quarantineKey d.userId := append_ne_of_incomparable (by decide) _ _
  rw [plan_stuffing cfg (stuffing_of_ipBlock (Or.inr h))] at h
  cases hip : d.scopedIp with
  | none => simp [hip, hq] at h
  | some ip =>
      refine ⟨ip, rfl, ?_⟩
      simp only [hip, Option.map_some, Option.toList_some, List.map_cons, List.map_nil, List.mem_cons, hq,
        List.not_mem_nil, or_false, false_or] at h
      exact ((String.append_right_inj ipBlockKeyPrefix).mp h).symm

/-- The step-up a plan sets has the lifetime of step-ups. -/
theorem stepUp_ttl {u : String} {ttl : ℕ} (hd : GeoOf u d) (h : (stepUpKey u, ttl) ∈ (plan cfg d pending).2) :
    ttl = cfg.stepUpTtlSeconds := by
  have hq : stepUpKey u ≠ quarantineKey u := append_ne_of_incomparable (by decide) _ _
  rw [plan_geo cfg hd] at h
  cases pending with
  | true => simpa [hq] using h
  | false => simpa using h

end

/-! ## What one step does -/

/-- The detection a client works on. -/
def Client.detection : Client → Option DetectionEvent
  | .idle => none
  | .ready d | .watching d _ | .missed d _ | .planned d _ _ => some d

@[simp] theorem Client.detection_touch (x : Client) (touched : String → Bool) :
    (x.touch touched).detection = x.detection := by
  cases x <;> rfl

section

variable {cfg : RedisConfig} {s t : System} {l : Label}

theorem System.detection_goto {c c' : ℕ} {x : Client} {d : DetectionEvent}
    (h : ((s.goto c x).clients c').detection = some d) :
    x.detection = some d ∨ (s.clients c').detection = some d := by
  rcases eq_or_ne c' c with rfl | hne
  · simp only [goto, Function.update_self] at h
    exact Or.inl h
  · simp only [goto, Function.update_of_ne hne] at h
    exact Or.inr h

/-- A client works on a detection that it was started with. -/
theorem detection_step (h : ContainStep cfg s l t) {c : ℕ} {d : DetectionEvent}
    (hc : (t.clients c).detection = some d) : l = .start d ∨ ∃ c', (s.clients c').detection = some d := by
  cases h with
  | start c' d' hc' =>
      rcases System.detection_goto hc with heq | hold
      · obtain rfl : d' = d := Option.some.inj heq
        exact Or.inl rfl
      · exact Or.inr ⟨c, hold⟩
  | hit | unreadable | ignored | crash =>
      rcases System.detection_goto hc with heq | hold
      · cases heq
      · exact Or.inr ⟨c, hold⟩
  | watch c' d' hc' | miss c' d' w hc' | plan c' d' w hc' | conflict c' d' w p hc' =>
      rcases System.detection_goto hc with heq | hold
      · obtain rfl : d' = d := Option.some.inj heq
        exact Or.inr ⟨c', by rw [hc']; rfl⟩
      · exact Or.inr ⟨c, hold⟩
  | exec c' d' w p r hc' hw =>
      rcases System.detection_goto hc with heq | hold
      · cases heq
      · exact Or.inr ⟨c, by simpa [System.write] using hold⟩
  | override op => exact Or.inr ⟨c, by simpa [System.write] using hc⟩
  | tick now h => exact Or.inr ⟨c, by simpa [System.write] using hc⟩

/-- A transaction is that of a client. -/
theorem detection_exec {d : DetectionEvent} {actions : List ActionKind} {returned : Bool}
    (h : ContainStep cfg s (.exec d actions returned) t) : ∃ c, (s.clients c).detection = some d := by
  cases h with
  | exec c _ w p _ hc hw => exact ⟨c, by rw [hc]; rfl⟩

/-- Apart from transactions, whatever a key holds was there before, or the API put it there; and the API
sets no step-up. -/
theorem entry_step (h : ContainStep cfg s l t) (hexec : ∀ d a r, l ≠ .exec d a r) {k : String} {e : Entry}
    (he : t.db k = some e) : s.db k = some e ∨ ByApi e ∧ ∀ u, k ≠ stepUpKey u := by
  rcases key_step h hexec k with heq | ⟨-, hgone | ⟨⟨e', he', hapi⟩, hmem⟩⟩
  · exact Or.inl (heq.symm.trans he)
  · rw [hgone] at he
    cases he
  · obtain rfl : e' = e := Option.some.inj (he'.symm.trans he)
    refine Or.inr ⟨hapi, fun u heq => ?_⟩
    have hstepUp : stepUpKey u ∈ keyFamilies [stepUpKeyPrefix] := mem_keyFamilies (by simp) _
    exact Set.disjoint_left.mp (keyFamilies_disjoint (by decide)) hstepUp (heq ▸ hmem)

/-- The deadline of `r` is not before that of `e`. -/
def Outlives (r e : Entry) : Prop := ∃ n m, e.expireAt = some n ∧ r.expireAt = some m ∧ n ≤ m

/-- A receipt is there as long as something that it outlives. -/
theorem receipt_outlives (h : ContainStep cfg s l t) (hexec : ∀ d a r, l ≠ .exec d a r) {k i : String}
    {e r : Entry} (he : t.db k = some e) (hr : s.db (receiptKey i) = some r) (hout : Outlives r e) :
    t.db (receiptKey i) = some r := by
  cases h with
  | start | watch | hit | unreadable | ignored | miss | plan | conflict | crash => exact hr
  | exec c d w p returned hc hw => exact absurd rfl (hexec _ _ _)
  | override op =>
      have hkey : receiptKey i ≠ op.key := by
        cases op <;> exact append_ne_of_incomparable (by decide) _ _
      exact (op.run_frame s.now s.db (by simp [Override.touched, hkey])).trans hr
  | tick now h =>
      obtain ⟨n, m, hn, hm, hle⟩ := hout
      have halive := (Option.filter_eq_some_iff.mp (show (s.db k).filter _ = some e from he)).2
      simp only [hn, Option.all_some, decide_eq_true_eq] at halive
      refine Option.filter_eq_some_iff.mpr ⟨hr, ?_⟩
      simp only [hm, Option.all_some, decide_eq_true_eq]
      omega

end

/-! ## The invariant -/

/-- The application wrote the entry under the key. -/
def Application.Wrote (cfg : RedisConfig) (a : Application) (k : String) (e : Entry) : Prop :=
  k ∈ (plan cfg a.detection a.pending.isSome).2.map Prod.fst ∧ NamedBy a.detection e

/-- What is known of a transaction that went through. -/
structure Application.Warranted (cfg : RedisConfig) (s : Site) (a : Application) : Prop where
  emitted : a.detection ∈ s.emitted
  actions : a.actions = (plan cfg a.detection a.pending.isSome).1
  escalates : ∀ u, GeoOf u a.detection → a.pending.isSome → a.Escalates s u

/-- What every reachable site keeps. -/
structure Provenance (rt : Runtime) (cfg : RedisConfig) (s : Site) : Prop where
  sound : s.system.Sound cfg
  produced : ∀ d ∈ s.emitted, Produced rt cfg d
  clients : ∀ c d, (s.system.clients c).detection = some d → d ∈ s.emitted
  applied : ∀ a ∈ s.applied, a.Warranted cfg s
  rules : ∀ k ∈ ruleKeys, ∀ e, s.system.db k = some e → ByApi e ∨ ∃ a ∈ s.applied, a.Wrote cfg k e
  /-- A step-up was set by a geo anomaly of its user, whose receipt outlives it. -/
  stepUps : ∀ u e, s.system.db (stepUpKey u) = some e → ∃ a ∈ s.applied, GeoOf u a.detection ∧
    NamedBy a.detection e ∧ ∃ r, s.system.db (receiptKey a.detection.detectionId) = some r ∧
      payload (some r) ≠ none ∧ Outlives r e

section

variable {rt : Runtime} {cfg : RedisConfig} {s t : Site}

/-- The records only grow. -/
theorem Application.Escalates.mono {u : String} {a : Application} (h : a.Escalates s u)
    (hemitted : s.emitted ⊆ t.emitted) (happlied : s.applied ⊆ t.applied) : a.Escalates t u := by
  obtain ⟨e, he, a₀, ha₀, hemit, hgeo, hne, hname⟩ := h
  exact ⟨e, he, a₀, happlied ha₀, hemitted hemit, hgeo, hne, hname⟩

theorem Application.Warranted.mono {a : Application} (h : a.Warranted cfg s) (hemitted : s.emitted ⊆ t.emitted)
    (happlied : s.applied ⊆ t.applied) : a.Warranted cfg t where
  emitted := hemitted h.emitted
  actions := h.actions
  escalates u hgeo hpending := (h.escalates u hgeo hpending).mono hemitted happlied

theorem Provenance.initial (h : s.Initial) : Provenance rt cfg s where
  sound := h.quiet.sound cfg
  produced d hd := by simp [h.emitted] at hd
  clients c d hc := by simp [h.quiet c, Client.detection] at hc
  applied a ha := by simp [h.applied] at ha
  rules k hk e he := by simp [h.rules k hk] at he
  stepUps u e he := by simp [h.rules _ (stepUpKey_mem u)] at he

/-! ### The pipeline -/

theorem receiptKey_mem (i : String) : receiptKey i ∈ receiptKeys := mem_keyFamilies (by simp) _

/-- Clients know about rules and receipts only. -/
theorem Client.sound_congr {x : Client} {db db' : Db} (hdb : ∀ k ∈ ruleKeys ∪ receiptKeys, db' k = db k)
    (hx : x.Sound cfg db) : x.Sound cfg db' := by
  cases x with
  | idle | ready | watching => exact hx
  | missed d w =>
      simp only [Client.Sound, hdb _ (Or.inr (receiptKey_mem _))]
      exact hx
  | planned d w p =>
      simp only [Client.Sound, hdb _ (Or.inr (receiptKey_mem _)), hdb _ (Or.inl (stepUpKey_mem _))]
      exact hx

/-- New detections, with rules and receipts as they were. -/
theorem Provenance.detected (hI : Provenance rt cfg s) {ds : List DetectionEvent} {db : Db}
    (hds : ∀ d ∈ ds, Produced rt cfg d) (hdb : ∀ k ∈ ruleKeys ∪ receiptKeys, db k = s.system.db k) :
    Provenance rt cfg (s.detected ds db) where
  sound c := Client.sound_congr hdb (hI.sound c)
  produced d hd := (List.mem_append.mp hd).elim (hI.produced d) (hds d)
  clients c d hc := List.mem_append_left _ (hI.clients c d hc)
  applied a ha := (hI.applied a ha).mono (List.subset_append_left _ _) (List.Subset.refl _)
  rules k hk e he := hI.rules k hk e ((hdb k (Or.inl hk)).symm.trans he)
  stepUps u e he := by
    have he : s.system.db (stepUpKey u) = some e := (hdb _ (Or.inl (stepUpKey_mem u))).symm.trans he
    obtain ⟨a, ha, hgeo, hname, r, hr, hstr, hout⟩ := hI.stepUps u e he
    exact ⟨a, ha, hgeo, hname, r, (hdb _ (Or.inr (receiptKey_mem _))).trans hr, hstr, hout⟩

/-- A batch writes neither rules nor receipts. -/
theorem handleBatch_rules (kafka : KafkaConfig) (now : ℕ) (records : List DecodedRecord) (db : Db) :
    ∀ k ∈ ruleKeys ∪ receiptKeys, (handleBatch rt kafka cfg now records db).2 k = db k := by
  rintro k (hk | hk)
  · exact handleBatch_frame rt kafka cfg now records db (Set.disjoint_left.mp (keyFamilies_disjoint (by decide)) hk)
      (Set.disjoint_left.mp (keyFamilies_disjoint (by decide)) hk)
  · exact handleBatch_frame rt kafka cfg now records db (Set.disjoint_left.mp (keyFamilies_disjoint (by decide)) hk)
      (Set.disjoint_left.mp (keyFamilies_disjoint (by decide)) hk)

/-- A batch emits what the detectors produce. -/
theorem emittedBy_produced {kafka : KafkaConfig} {now : ℕ} {records : List DecodedRecord} {db : Db}
    {d : DetectionEvent} (hd : d ∈ emittedBy (handleBatch rt kafka cfg now records db).1) : Produced rt cfg d := by
  rcases hout : handleBatch rt kafka cfg now records db with ⟨⟨audits, _ | r⟩, db'⟩
  · rw [hout] at hd
    cases hd
  · rw [hout] at hd
    exact handleBatch_produced hout hd

/-! ### Containment -/

/-- A step that is no transaction. -/
theorem Provenance.other (hI : Provenance rt cfg s) {l : Label} {sys : System} (h : ContainStep cfg s.system l sys)
    (hexec : ∀ d a r, l ≠ .exec d a r) (hstart : ∀ d, l = .start d → d ∈ s.emitted) :
    Provenance rt cfg { s with system := sys } where
  sound := System.sound_step hI.sound h
  produced := hI.produced
  clients c d hc := by
    rcases detection_step h hc with hl | ⟨c', hc'⟩
    · exact hstart d hl
    · exact hI.clients c' d hc'
  applied a ha := (hI.applied a ha).mono (List.Subset.refl s.emitted) (List.Subset.refl s.applied)
  rules k hk e he := by
    rcases entry_step h hexec he with hold | ⟨hapi, -⟩
    · exact hI.rules k hk e hold
    · exact Or.inl hapi
  stepUps u e he := by
    rcases entry_step h hexec he with hold | ⟨-, hne⟩
    · obtain ⟨a, ha, hgeo, hname, r, hr, hstr, hout⟩ := hI.stepUps u e hold
      exact ⟨a, ha, hgeo, hname, r, receipt_outlives h hexec he hr hout, hstr, hout⟩
    · exact absurd rfl (hne u)

/-- A detection without a receipt did not set the step-up that is pending. -/
theorem Provenance.escalates (hI : Provenance rt cfg s) {d : DetectionEvent} {actions : List ActionKind} {u : String}
    (hnone : receipt s.system.db d.detectionId = none) (hd : GeoOf u d)
    (hpending : (s.system.db (stepUpKey d.userId)).isSome) :
    Application.Escalates s u ⟨d, actions, s.system.db (stepUpKey d.userId)⟩ := by
  obtain ⟨e, he⟩ := Option.isSome_iff_exists.mp hpending
  obtain ⟨a, ha, hgeo, hname, r, hr, hstr, -⟩ := hI.stepUps d.userId e he
  refine ⟨e, he, a, ha, (hI.applied a ha).emitted, hd.2 ▸ hgeo, fun hid => ?_, hname⟩
  -- the setter has a receipt
  have hid : a.detection.detectionId = d.detectionId := hid
  rw [hid] at hr
  rw [receipt, hr] at hnone
  exact hstr hnone

section

variable {d : DetectionEvent} {actions : List ActionKind} {returned : Bool} {sys : System}

/-- A transaction sets the rules of its plan. -/
theorem Provenance.exec_rule (hI : Provenance rt cfg s) (h : ContainStep cfg s.system (.exec d actions returned) sys)
    {k : String} (hk : k ∈ ruleKeys) {e : Entry} (he : sys.db k = some e) :
    s.system.db k = some e ∨ Application.Wrote cfg ⟨d, actions, s.system.db (stepUpKey d.userId)⟩ k e := by
  by_cases hplan : k ∈ (plan cfg d (s.system.db (stepUpKey d.userId)).isSome).2.map Prod.fst
  · obtain ⟨-, -, -, hdb⟩ := exec_spec hI.sound h
    obtain ⟨ttl, -, hentry⟩ := writeAll_entry cfg s.system.now d _ s.system.db hplan
    rw [← hdb, he] at hentry
    exact Or.inr ⟨hplan, (Option.some.inj hentry) ▸ rfl⟩
  · have hkey : k ≠ receiptKey d.detectionId := fun heq => receiptKey_notMem_ruleKeys _ (heq ▸ hk)
    exact Or.inl ((exec_frame hI.sound h hkey hplan).symm.trans he)

/-- A geo anomaly sets the step-up together with its receipt. -/
theorem stepUp_exec (httl : cfg.stepUpTtlSeconds ≤ cfg.containmentReceiptTtlSeconds) (hI : Provenance rt cfg s)
    (h : ContainStep cfg s.system (.exec d actions returned) sys) {u : String} (hgeo : GeoOf u d) {e : Entry}
    (he : sys.db (stepUpKey u) = some e) : NamedBy d e ∧
      ∃ r, sys.db (receiptKey d.detectionId) = some r ∧ payload (some r) ≠ none ∧ Outlives r e := by
  obtain ⟨-, -, -, hdb⟩ := exec_spec hI.sound h
  have hplan : stepUpKey u ∈ (plan cfg d (s.system.db (stepUpKey d.userId)).isSome).2.map Prod.fst := by
    rw [plan_keys_geo hgeo.1, hgeo.2]
    exact List.mem_cons_self
  obtain ⟨ttl, hmem, hentry⟩ := writeAll_entry cfg s.system.now d _ s.system.db hplan
  rw [← hdb, he, stepUp_ttl hgeo hmem] at hentry
  obtain rfl := Option.some.inj hentry
  have hreceipt := writeAll_receiptEntry cfg s.system.now d _ s.system.db
    (receiptKey_notMem_plan cfg d (s.system.db (stepUpKey d.userId)).isSome d.detectionId)
  rw [← hdb] at hreceipt
  refine ⟨rfl, _, hreceipt, Option.some_ne_none _, _, _, rfl, rfl, ?_⟩
  exact Nat.add_le_add_left (Nat.mul_le_mul_left 1000 httl) _

/-- Any other transaction leaves a step-up and the receipt of its setter alone. -/
theorem Provenance.stepUp_kept (hI : Provenance rt cfg s)
    (h : ContainStep cfg s.system (.exec d actions returned) sys) {u : String} (hgeo : ¬ GeoOf u d) {e : Entry}
    (he : sys.db (stepUpKey u) = some e) : ∃ a ∈ s.applied, GeoOf u a.detection ∧ NamedBy a.detection e ∧
      ∃ r, sys.db (receiptKey a.detection.detectionId) = some r ∧ payload (some r) ≠ none ∧ Outlives r e := by
  have hkey : stepUpKey u ≠ receiptKey d.detectionId := append_ne_of_incomparable (by decide) _ _
  have he : s.system.db (stepUpKey u) = some e :=
    (exec_frame hI.sound h hkey (stepUpKey_notMem_plan cfg hgeo _)).symm.trans he
  obtain ⟨a, ha, hgeo', hname, r, hr, hstr, hout⟩ := hI.stepUps u e he
  refine ⟨a, ha, hgeo', hname, r, ?_, hstr, hout⟩
  -- the receipt of the setter is not the one written here, which was not there
  have hid : receiptKey a.detection.detectionId ≠ receiptKey d.detectionId := by
    intro heq
    have hnone := (exec_spec hI.sound h).1
    rw [heq] at hr
    rw [receipt, hr] at hnone
    exact hstr hnone
  rw [← hr]
  exact exec_frame hI.sound h hid (receiptKey_notMem_plan cfg d _ _)

/-- A transaction. -/
theorem Provenance.exec (httl : cfg.stepUpTtlSeconds ≤ cfg.containmentReceiptTtlSeconds) (hI : Provenance rt cfg s)
    (h : ContainStep cfg s.system (.exec d actions returned) sys) :
    Provenance rt cfg { s with
      system := sys
      applied := s.applied ++ [⟨d, actions, s.system.db (stepUpKey d.userId)⟩] } := by
  set new : Application := ⟨d, actions, s.system.db (stepUpKey d.userId)⟩ with hnew
  have hold : s.applied ⊆ s.applied ++ [new] := List.subset_append_left _ _
  have hmem : new ∈ s.applied ++ [new] := List.mem_append_right _ (List.mem_singleton_self new)
  refine ⟨System.sound_step hI.sound h, hI.produced, fun c d' hc => ?_, fun a ha => ?_, fun k hk e he => ?_,
    fun u e he => ?_⟩
  · rcases detection_step h hc with hl | ⟨c', hc'⟩
    · cases hl
    · exact hI.clients c' d' hc'
  · rcases List.mem_append.mp ha with ha | ha
    · exact (hI.applied a ha).mono (List.Subset.refl s.emitted) hold
    · obtain rfl := List.mem_singleton.mp ha
      obtain ⟨c, hc⟩ := detection_exec h
      obtain ⟨hnone, hact, -, -⟩ := exec_spec hI.sound h
      exact ⟨hI.clients c d hc, hact, fun u hgeo hsome =>
        (hI.escalates hnone hgeo hsome).mono (List.Subset.refl s.emitted) hold⟩
  · rcases hI.exec_rule h hk he with he | hwrote
    · refine (hI.rules k hk e he).imp_right ?_
      rintro ⟨a, ha, hwrote⟩
      exact ⟨a, hold ha, hwrote⟩
    · exact Or.inr ⟨new, hmem, hwrote⟩
  · by_cases hgeo : GeoOf u d
    · obtain ⟨hname, hreceipt⟩ := stepUp_exec httl hI h hgeo he
      exact ⟨new, hmem, hgeo, hname, hreceipt⟩
    · obtain ⟨a, ha, hkept⟩ := hI.stepUp_kept h hgeo he
      exact ⟨a, hold ha, hkept⟩

end

/-- One step of the site. -/
theorem Provenance.step (httl : cfg.stepUpTtlSeconds ≤ cfg.containmentReceiptTtlSeconds) (hI : Provenance rt cfg s)
    {l : Option Label} (h : SiteStep rt cfg s l t) : Provenance rt cfg t := by
  cases h with
  | batch kafka records => exact hI.detected (fun d hd => emittedBy_produced hd) (handleBatch_rules _ _ _ _)
  | interleaved ds db hds hdb => exact hI.detected hds hdb
  | contain l sys h hstart =>
      cases l with
      | exec d actions returned => exact hI.exec httl h
      | _ =>
          simp only [Label.applications, List.append_nil]
          exact hI.other h (by simp) hstart

/-! ## Justification -/

/-- A produced detection with a scoped address is IP-scope stuffing above its threshold. -/
theorem stuffing_of_scopedIp {d : DetectionEvent} {ip : String} (h : Produced rt cfg d)
    (hip : d.scopedIp = some ip) : Stuffing cfg d "ip" cfg.authFailIpThreshold := by
  rcases h.cases with ⟨-, hnone⟩ | huser | hip
  · rw [hnone] at hip
    cases hip
  · have hscope := (scopedIp_eq_some.mp hip).1
    rw [huser.scope] at hscope
    simp at hscope
  · exact hip

theorem pending_of_quarantine {d : DetectionEvent} {u : String} {pending : Bool} (hd : GeoOf u d)
    (h : .quarantine ∈ (plan cfg d pending).1) : pending = true := by
  rw [plan_geo cfg hd] at h
  cases pending with
  | true => rfl
  | false => simp at h

theorem Provenance.justified (hI : Provenance rt cfg s) : Justified cfg s where
  quarantine u e he := by
    refine (hI.rules _ (quarantineKey_mem u) e he).imp_right ?_
    rintro ⟨a, ha, hplan, hname⟩
    have hwarranted := hI.applied a ha
    obtain ⟨hu, htype | ⟨htype, hpending⟩⟩ := quarantineKey_mem_plan hplan
    · exact ⟨a, ha, hwarranted.emitted, hu, hname, Or.inl htype⟩
    · exact ⟨a, ha, hwarranted.emitted, hu, hname, Or.inr ⟨htype, hwarranted.escalates u ⟨htype, hu⟩ hpending⟩⟩
  stepUp u e he := by
    obtain ⟨a, ha, hgeo, hname, -⟩ := hI.stepUps u e he
    exact ⟨a.detection, (hI.applied a ha).emitted, hgeo, hname⟩
  ipBlock k e he := by
    refine (hI.rules _ (mem_keyFamilies (by simp) k) e he).imp_right ?_
    rintro ⟨a, ha, hplan, hname⟩
    have hemitted := (hI.applied a ha).emitted
    obtain ⟨ip, hip, hk⟩ := ipBlockKey_mem_plan hplan
    have haddress : a.detection.ipAddress = some ip :=
      (Option.filter_eq_some_iff.mp (scopedIp_eq_some.mp hip).2).1
    exact ⟨a.detection, hemitted, hname, stuffing_of_scopedIp (hI.produced _ hemitted) hip, ip, haddress, hk⟩
  blocks a ha hblock := by
    rw [(hI.applied a ha).actions] at hblock
    obtain ⟨ip, hip⟩ := scopedIp_of_ipBlock hblock
    exact (scopedIp_eq_some.mp hip).1
  escalations a ha u hgeo hquarantine := by
    have hwarranted := hI.applied a ha
    rw [hwarranted.actions] at hquarantine
    exact hwarranted.escalates u hgeo (pending_of_quarantine hgeo hquarantine)

/-- At every moment of every run of the pipeline and the containment engine, every live rule is justified:
by an override of the API, or by an emitted detection that calls for it. -/
theorem rules_justified {ls : List (Option Label)}
    (httl : cfg.stepUpTtlSeconds ≤ cfg.containmentReceiptTtlSeconds) (hs : s.Initial)
    (h : Run (SiteStep rt cfg) s ls t) : Justified cfg t := by
  have hI : Provenance rt cfg t := h.invariant (Provenance.initial hs) fun _ _ _ hI hstep => hI.step httl hstep
  exact hI.justified

theorem System.clients_goto (sys : System) (c : ℕ) (x : Client) : (sys.goto c x).clients c = x :=
  Function.update_self _ _ _

variable (rt cfg) in
/-- An undisturbed call for an emitted detection. -/
theorem apply_run {d : DetectionEvent} (hidle : s.system.clients 0 = .idle) (hd : d ∈ s.emitted)
    (hnone : payload (s.system.db (receiptKey d.detectionId)) = none) (hknown : Known d.detectionType) :
    ∃ ls t, Run (SiteStep rt cfg) s ls t ∧ t.system.db =
      (writeAll cfg s.system.now d (plan cfg d (s.system.db (stepUpKey d.userId)).isSome) s.system.db).2 := by
  have hplan : (plan cfg d false).1 ≠ [] := (plan_ne_nil_iff cfg d false).mpr hknown
  refine ⟨_, _, .cons (.contain _ _ (.start 0 d hidle) fun d' heq => ?_)
    (.cons (.contain _ _ (.watch 0 d ?_) (by simp))
    (.cons (.contain _ _ (.miss 0 d (watchOf d) ?_ hnone hplan) (by simp))
    (.cons (.contain _ _ (.plan 0 d (watchOf d) ?_) (by simp))
    (.single (.contain _ _ (.exec 0 d (watchOf d) _ true ?_ rfl) (by simp)))))), rfl⟩
  · cases heq
    exact hd
  all_goals exact System.clients_goto _ _ _

end

namespace Sample

/-- The office before the two logins. -/
def officeSite : Site := ⟨⟨0, office, fun _ => .idle⟩, [], []⟩

theorem officeSite_initial : officeSite.Initial where
  quiet _ := rfl
  emitted := rfl
  applied := rfl
  rules k hk := by
    refine if_neg fun heq => ?_
    have hfail : k ∈ keyFamilies [ipFailKeyPrefix] := heq ▸ mem_keyFamilies (List.mem_singleton.mpr rfl) _
    exact Set.disjoint_left.mp (keyFamilies_disjoint (by decide)) hk hfail

end Sample

/-- The batch of the two logins, and the containment of what it emits. -/
theorem rules_justified_office :
    ∃ ls t, Run (SiteStep loginRuntime {}) Sample.officeSite ls t ∧ Live t.system.db (quarantineKey "alice") ∧
      Justified {} t := by
  obtain ⟨d, _, audits, r, db, -, hrun, hemitted, ⟨hid, htype, huser, hreceipt⟩, -, -, -, hproduced⟩ := logins_emitted
  have hknown : Known d.detectionType := known_of_produced (hproduced d (by simp))
  have hbatch : SiteStep loginRuntime {} Sample.officeSite none
      (Sample.officeSite.detected (emittedBy (handleBatch loginRuntime {} {} 0 logins office).1)
        (handleBatch loginRuntime {} {} 0 logins office).2) := .batch {} logins
  simp only [hrun, emittedBy, hemitted] at hbatch
  have hnone : payload (db (receiptKey d.detectionId)) = none := by
    rw [hid, hreceipt]
    rfl
  obtain ⟨ls, t, happly, hdb⟩ := apply_run loginRuntime {} (s := Sample.officeSite.detected [d] db) rfl
    (List.mem_singleton_self d) hnone hknown
  refine ⟨_, t, .cons hbatch happly, ?_, rules_justified (by decide) Sample.officeSite_initial (.cons hbatch happly)⟩
  rw [Live, hdb, Option.isSome_iff_ne_none]
  refine writeAll_rule _ _ _ _ _ ?_
  rw [plan_stuffing _ htype, huser]
  exact List.mem_cons_self

end Rtace.Containment
