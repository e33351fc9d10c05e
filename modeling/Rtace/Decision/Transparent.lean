import Rtace.Decision.LostResult

/-!
# Asking the decision service first

Two runs over the same sequence of records are compared: one with only the detection engine, one in which
`Decide` is called for some events right before their records are handled. The runs differ in the replay
keys (the first delivery is a record in one and a decision in the other) and agree on rules, windows and
sessions, which is enough for every record to have the same candidates.
-/

namespace Rtace

open Lib Redis

/-- A call of `Decide` at a server time. -/
structure Inquiry where
  transaction : Engine.Transaction
  call : Engine.Call
  now : ℕ

/-- One record of the sequence, handled at server time `now`, with the call of `Decide` made right before
it, if any. Both services see the same transaction. -/
structure Visit (rt : Runtime) (kafka : KafkaConfig) where
  record : TxRecord rt kafka
  now : ℕ
  inquiry : Option Inquiry
  same : ∀ q ∈ inquiry, SameEvent rt q.call q.transaction record.tx

/-- The two services are configured alike. -/
structure SameConfig (gcfg : Engine.Config) (cfg : RedisConfig) : Prop where
  replayTtl : gcfg.replayTtl = cfg.replayTtlHours * 3600
  burstWindow : gcfg.burstWindow = cfg.burstWindowSeconds
  burstThreshold : gcfg.burstThreshold = cfg.burstThreshold
  burstKeyTtl : gcfg.burstKeyTtl = cfg.burstKeyTtlSeconds
  sessionTtl : gcfg.sessionTtl = cfg.sessionTtlDays * 86400
  maxVelocity : gcfg.maxVelocityKmh = cfg.geoMaxVelocityKmh

/-- What identifies a candidate. -/
structure Identity where
  detectionId : String
  detectionType : String
  userId : String
  transactionId : String

def DetectionEvent.identity (d : DetectionEvent) : Identity :=
  ⟨d.detectionId, d.detectionType, d.userId, d.transactionId⟩

section

variable {rt : Runtime} {kafka : KafkaConfig}

namespace Visit

abbrev ref (v : Visit rt kafka) : String := v.record.ref

abbrev eventId (v : Visit rt kafka) : String := v.record.tx.eventId

/-- The keyspace after the call of `Decide`, if there is one. -/
def ask (gcfg : Engine.Config) (v : Visit rt kafka) (db : Db) : Db :=
  match v.inquiry with
  | some q => (Engine.decide rt gcfg q.now q.call q.transaction db).2
  | none => db

/-- The identities of the candidates of the record, or the exception its handling raises. -/
def identities (cfg : RedisConfig) (v : Visit rt kafka) (db : Db) : Except PyError (Set Identity) :=
  (recordCandidates rt kafka cfg v.now v.record.record db).map fun ds => {x | ∃ d ∈ ds, d.identity = x}

/-- The keyspace after the record is handled. -/
def handle (cfg : RedisConfig) (v : Visit rt kafka) (db : Db) : Db :=
  (handleBatch rt kafka cfg v.now [v.record.record] db).2

end Visit

/-- The run without the decision service. -/
def handleVisits (cfg : RedisConfig) : List (Visit rt kafka) → Db → List (Except PyError (Set Identity)) × Db
  | [], db => ([], db)
  | v :: vs, db =>
      let rest := handleVisits cfg vs (v.handle cfg db)
      (v.identities cfg db :: rest.1, rest.2)

/-- The run with the decision service asked first. -/
def askVisits (gcfg : Engine.Config) (cfg : RedisConfig) :
    List (Visit rt kafka) → Db → List (Except PyError (Set Identity)) × Db
  | [], db => ([], db)
  | v :: vs, db =>
      let rest := askVisits gcfg cfg vs (v.handle cfg (v.ask gcfg db))
      (v.identities cfg (v.ask gcfg db) :: rest.1, rest.2)

/-! ## Identities -/

/-- The identity of a finding of this type for a transaction record. -/
def findingIdentity (rt : Runtime) (tx : TransactionEvent) (ref type : String) : Identity :=
  ⟨stableDetectionId rt (idPrefixOf type) ref type "", type, tx.userId, tx.eventId⟩

/-- A finding without a scope is identified by its type. -/
theorem identity_assignStableId {tx : TransactionEvent} {ref : String} {d : DetectionEvent}
    (hscope : d.detail "scope" = none) (huser : d.userId = tx.userId) (htx : d.transactionId = tx.eventId) :
    (assignStableId rt ref d).identity = findingIdentity rt tx ref d.detectionType := by
  simp [DetectionEvent.identity, assignStableId, hscope, findingIdentity, Json.truthy, Json.text, huser, htx]

theorem findings_scope {cfg : RedisConfig} {tx : TransactionEvent} {r : TxReply} {d : DetectionEvent}
    (hd : d ∈ findings cfg tx r) : d.detail "scope" = none := by
  obtain ⟨o, ho, rfl⟩ := List.mem_filterMap.mp hd
  simp only [List.mem_cons, List.not_mem_nil, or_false] at ho
  rcases ho with h | h | h
  · unfold replayInterpret at h
    split at h <;> cases h
    rfl
  · unfold geoInterpret at h
    split at h <;> cases h
    rfl
  · unfold burstInterpret at h
    split at h <;> cases h
    rfl

theorem interpret_scope {gcfg : Engine.Config} {g : Engine.Transaction} {r : TxReply} {x : Engine.Reason}
    (hx : x ∈ Engine.interpret gcfg g r) (tx : TransactionEvent) (d : Engine.Decision) :
    (Engine.reasonDetection tx d x).detail "scope" = none := by
  simp only [Engine.interpret, List.mem_append, List.mem_ite_nil_right, List.mem_singleton] at hx
  rcases hx with (⟨-, rfl⟩ | ⟨-, rfl⟩) | ⟨-, rfl⟩
  · rfl
  · rfl
  · rfl

/-- The identities of findings of these types. -/
def identitiesOf (rt : Runtime) (tx : TransactionEvent) (ref : String) (types : Set String) : Set Identity :=
  findingIdentity rt tx ref '' types

variable {cfg : RedisConfig} {gcfg : Engine.Config} {v : Visit rt kafka} {ts : ℚ} {db : Db}

/-- The script arguments for a record. -/
abbrev Visit.args (cfg : RedisConfig) (v : Visit rt kafka) (ts : ℚ) : TxArgs :=
  txArgs cfg v.record.tx v.ref ts

abbrev Visit.keys (v : Visit rt kafka) : TxKeys := txKeys rt v.record.tx

/-- The identities of a record that is not prescored. -/
theorem identities_scored (hts : v.record.tx.timestamp.timestamp rt = .ok ts)
    (hfree : db (quarantineKey v.record.tx.userId) = none)
    (hstatus : replayStatusOf (storedRef db v.keys.replay) (v.args cfg ts) ≠ .prescored) :
    v.identities cfg db = .ok (identitiesOf rt v.record.tx v.ref
      {t | (t = "replay_attack" ∧ replayStatusOf (storedRef db v.keys.replay) (v.args cfg ts) = .replay) ∨
        t ∈ firing rt v.keys (v.args cfg ts) cfg.burstThreshold db}) := by
  rw [Visit.identities, recordCandidates_tx, scanTx_free _ _ _ hts hfree]
  simp only [txCheck_replayStatus (txKeys_distinct rt v.record.tx)]
  rw [if_neg hstatus]
  simp only [Except.map, Except.ok.injEq]
  ext x
  simp only [Set.mem_ofPred_eq, identitiesOf, Set.mem_image, ← mem_findings_types v.now hstatus,
    List.mem_map]
  constructor
  · rintro ⟨_, ⟨d, hd, rfl⟩, rfl⟩
    have habout := findings_about hd
    exact ⟨d.detectionType, ⟨d, hd, rfl⟩,
      (identity_assignStableId (findings_scope hd) habout.userId habout.transactionId).symm⟩
  · rintro ⟨_, ⟨d, hd, rfl⟩, rfl⟩
    have habout := findings_about hd
    exact ⟨_, ⟨d, hd, rfl⟩, identity_assignStableId (findings_scope hd) habout.userId habout.transactionId⟩

/-- The identities of a prescored record are those of the reasons in the stored decision. -/
theorem identities_prescored (hts : v.record.tx.timestamp.timestamp rt = .ok ts)
    (hfree : db (quarantineKey v.record.tx.userId) = none)
    (hstatus : replayStatusOf (storedRef db v.keys.replay) (v.args cfg ts) = .prescored)
    {call : Engine.Call} {g : Engine.Transaction} {r : TxReply}
    (hdoc : payload (db (resultKey v.record.tx.eventId)) = some (.json (Engine.scored gcfg call g r).toJson)) :
    v.identities cfg db = .ok (identitiesOf rt v.record.tx v.ref
      {t | t ∈ (Engine.interpret gcfg g r).map Engine.Reason.type}) := by
  have hknown : ∀ x ∈ Engine.interpret gcfg g r, Engine.reemitted x.type := by
    intro x hx
    simp only [Engine.interpret, List.mem_append, List.mem_ite_nil_right, List.mem_singleton] at hx
    rcases hx with (⟨-, rfl⟩ | ⟨-, rfl⟩) | ⟨-, rfl⟩
    · rfl
    · rfl
    · rfl
  have hreasons : (Engine.scored gcfg call g r).reasons = Engine.interpret gcfg g r := rfl
  rw [Visit.identities, recordCandidates_tx, scanTx_free _ _ _ hts hfree]
  simp only [txCheck_prescored hstatus, if_true, hdoc, Engine.detectionsFromDecision_toJson, Except.map,
    Except.ok.injEq, hreasons, List.filter_eq_self.mpr hknown]
  ext x
  simp only [Set.mem_ofPred_eq, identitiesOf, Set.mem_image, List.mem_map]
  constructor
  · rintro ⟨_, ⟨_, ⟨y, hy, rfl⟩, rfl⟩, rfl⟩
    exact ⟨y.type, ⟨y, hy, rfl⟩, (identity_assignStableId (interpret_scope hy _ _) rfl rfl).symm⟩
  · rintro ⟨_, ⟨y, hy, rfl⟩, rfl⟩
    exact ⟨_, ⟨_, ⟨y, hy, rfl⟩, rfl⟩, identity_assignStableId (interpret_scope hy _ _) rfl rfl⟩

/-- The types among the identities of a record. -/
theorem identities_types (cfg : RedisConfig) (v : Visit rt kafka) (db : Db) {types : List String}
    (h : (recordCandidates rt kafka cfg v.now v.record.record db).toOption.map (·.map (·.detectionType))
      = some types) :
    ∃ S, v.identities cfg db = .ok S ∧ Identity.detectionType '' S = {t | t ∈ types} := by
  obtain ⟨ds, hds, rfl⟩ := Option.map_eq_some_iff.mp h
  rw [Visit.identities, toOption_eq_some.mp hds]
  refine ⟨_, rfl, ?_⟩
  ext t
  simp [DetectionEvent.identity]

/-! ## The effect of the script -/

/-- The keys the two runs are compared on. -/
def trackedKeys : Set String :=
  keyFamilies [quarantineKeyPrefix, replayKeyPrefix, burstKeyPrefix, sessionKeyPrefix]

/-- `db'` is `db` after the script ran in full at time `now`, storing `ref` if the replay key was free. -/
structure Scored (rt : Runtime) (keys : TxKeys) (a : TxArgs) (now : ℕ) (ref : String) (db db' : Db) :
    Prop where
  replay : storedRef db' keys.replay = some ((storedRef db keys.replay).getD (.text ref))
  burst : db' keys.burst = some ⟨.zset ((members (db keys.burst)).slide a.burstCutoff a.nowTs a.eventId),
    deadline now a.burstKeyTtl⟩
  session : db' keys.session = sessionAfter now a (geoFinding rt a (fields (db keys.session))) (db keys.session)
  frame : ∀ k ∈ trackedKeys, k ≠ keys.replay → k ≠ keys.burst → k ≠ keys.session → db' k = db k

theorem replayKey_mem_trackedKeys (hash : String) : replayKey hash ∈ trackedKeys :=
  mem_keyFamilies (by simp) _

theorem burstKey_mem_trackedKeys (userId : String) : burstKey userId ∈ trackedKeys :=
  mem_keyFamilies (by simp) _

theorem sessionKey_mem_trackedKeys (userId : String) : sessionKey userId ∈ trackedKeys :=
  mem_keyFamilies (by simp) _

theorem quarantineKey_mem_trackedKeys (userId : String) : quarantineKey userId ∈ trackedKeys :=
  mem_keyFamilies (by simp) _

theorem trackedKeys_disjoint : Disjoint trackedKeys (keyFamilies [cooldownKeyPrefix, resultKeyPrefix]) :=
  keyFamilies_disjoint (by decide)

theorem notMem_cooldownKeys {k : String} (hk : k ∈ trackedKeys) : k ∉ cooldownKeys := by
  rintro ⟨p, hp, hkp⟩
  exact Set.disjoint_left.mp trackedKeys_disjoint hk ⟨p, by simp_all, hkp⟩

theorem ne_resultKey {k : String} (hk : k ∈ trackedKeys) (eventId : String) : k ≠ resultKey eventId := by
  rintro rfl
  exact Set.disjoint_left.mp trackedKeys_disjoint hk (mem_keyFamilies (by simp) _)

variable {keys : TxKeys} {a : TxArgs} {now : ℕ} {ref : String} {db' db'' : Db}

/-- The effect of a script call that is not prescored. -/
theorem scored_txCheck (rt : Runtime) (now : ℕ) (hd : keys.Distinct)
    (h : replayStatusOf (storedRef db keys.replay) a ≠ .prescored) :
    Scored rt keys a now a.recordRef db (txCheck rt now keys a db).2 where
  replay := storedRef_txCheck rt now a db hd
  burst := by
    rw [txCheck_scored hd h]
    simp only [Function.update_of_ne hd.burst_session, Function.update_self]
  session := by
    rw [txCheck_scored hd h]
    simp only [Function.update_self]
  frame := by
    intro k _ hr hb hs
    rw [txCheck_scored hd h]
    simp only [Function.update_of_ne hr, Function.update_of_ne hb, Function.update_of_ne hs]

/-- Only the tracked keys matter. -/
theorem Scored.congr (h : Scored rt (txKeys rt v.record.tx) a now ref db db')
    (heq : ∀ k ∈ trackedKeys, db'' k = db' k) : Scored rt (txKeys rt v.record.tx) a now ref db db'' where
  replay := by
    rw [← h.replay, storedRef, storedRef, heq (txKeys rt v.record.tx).replay (replayKey_mem_trackedKeys _)]
  burst := (heq _ (burstKey_mem_trackedKeys _)).trans h.burst
  session := (heq _ (sessionKey_mem_trackedKeys _)).trans h.session
  frame k hk hr hb hs := (heq k hk).trans (h.frame k hk hr hb hs)

/-- The script leaves the quarantine rules alone. -/
theorem Scored.quarantine (h : Scored rt (txKeys rt v.record.tx) a now ref db db') {userId : String}
    (hfree : db (quarantineKey userId) = none) : db' (quarantineKey userId) = none := by
  rw [← hfree]
  exact h.frame _ (quarantineKey_mem_trackedKeys _)
    (append_ne_of_incomparable (p := quarantineKeyPrefix) (q := replayKeyPrefix) (by decide) _ _)
    (append_ne_of_incomparable (p := quarantineKeyPrefix) (q := burstKeyPrefix) (by decide) _ _)
    (append_ne_of_incomparable (p := quarantineKeyPrefix) (q := sessionKeyPrefix) (by decide) _ _)

/-- The session section does not look at the delivery reference. -/
theorem geoFinding_recordRef (a : TxArgs) (ref : String) (s : Option Flt × Option Flt × Option ℚ) :
    geoFinding rt { a with recordRef := ref } s = geoFinding rt a s := by
  rcases s with ⟨_ | _, _ | _, _ | _⟩ <;> rfl

theorem firing_recordRef (keys : TxKeys) (a : TxArgs) (ref : String) (threshold : ℤ) (db : Db) :
    firing rt keys { a with recordRef := ref } threshold db = firing rt keys a threshold db := by
  simp only [firing, geoFinding_recordRef]

/-- The reference of the call is not part of the effect. -/
theorem Scored.of_recordRef {ref' : String} (h : Scored rt keys { a with recordRef := ref' } now ref db db') :
    Scored rt keys a now ref db db' where
  replay := h.replay
  burst := h.burst
  session := by
    have hsession := h.session
    rw [geoFinding_recordRef] at hsession
    exact hsession
  frame := h.frame

/-- A place is at no distance from itself, so a second look at a clean transaction is clean. -/
theorem geoFinding_self (hvel : 0 ≤ a.maxVelocity) (hself : ∀ lat lon, haversineKm rt lat lon lat lon = 0) :
    (geoFinding rt a (some a.lat, some a.lon, some a.nowTs)).status = .ok := by
  simp only [geoFinding, sub_self, lt_irrefl, if_false]
  rcases a.lat with x | _ | _
  · rcases a.lon with y | _ | _
    · simp [haversineFlt, hself, Flt.divBy, Flt.gt, hvel]
    · simp [haversineFlt, Flt.divBy, Flt.gt]
    · simp [haversineFlt, Flt.divBy, Flt.gt]
  · simp [haversineFlt, Flt.divBy, Flt.gt]
  · simp [haversineFlt, Flt.divBy, Flt.gt]

/-- What a second script call with the same transaction finds in the session the first one left. -/
theorem geoFinding_again (now : ℕ) (hvel : 0 ≤ a.maxVelocity) (hself : ∀ lat lon, haversineKm rt lat lon lat lon = 0)
    (e : Option Entry) :
    let g := geoFinding rt a (fields e)
    let again := geoFinding rt a (fields (sessionAfter now a g e))
    (again.status = .anomaly ↔ g.status = .anomaly) ∧
      ((again.status = .baseline ∨ again.status = .ok) ↔ (g.status = .baseline ∨ g.status = .ok)) := by
  intro g again
  by_cases hclean : g.status = .baseline ∨ g.status = .ok
  · have hagain : again.status = .ok := by
      simp only [again, sessionAfter, if_pos hclean, fields_hash]
      exact geoFinding_self hvel hself
    rw [hagain]
    refine ⟨⟨by simp, fun h => ?_⟩, by simp [hclean]⟩
    rcases hclean with hc | hc <;> rw [hc] at h <;> cases h
  · have hagain : again = g := by
      simp only [again, sessionAfter, if_neg hclean]
      rfl
    rw [hagain]
    exact ⟨Iff.rfl, Iff.rfl⟩

/-- Running the script twice for one transaction has the effect of running it once, at the second time. -/
theorem Scored.again {now' : ℕ} {ref' : String} (hvel : 0 ≤ a.maxVelocity)
    (hself : ∀ lat lon, haversineKm rt lat lon lat lon = 0)
    (h : Scored rt keys a now ref db db') (h' : Scored rt keys a now' ref' db' db'') :
    Scored rt keys a now' ref db db'' where
  replay := by rw [h'.replay, h.replay, Option.getD_some]
  burst := by
    rw [h'.burst, h.burst, members_zset, ScoredSet.slide_slide]
  session := by
    obtain ⟨-, hclean⟩ := geoFinding_again now hvel hself (db keys.session)
    rw [h'.session, h.session]
    unfold sessionAfter at hclean ⊢
    by_cases hg : (geoFinding rt a (fields (db keys.session))).status = .baseline ∨
        (geoFinding rt a (fields (db keys.session))).status = .ok
    · simp only [if_pos hg] at hclean ⊢
      rw [if_pos (hclean.mpr hg)]
    · simp only [if_neg hg] at hclean ⊢
  frame k hk hr hb hs := (h'.frame k hk hr hb hs).trans (h.frame k hk hr hb hs)

/-- The second run fires as the first did. -/
theorem Scored.firing_again {threshold : ℤ} (hvel : 0 ≤ a.maxVelocity)
    (hself : ∀ lat lon, haversineKm rt lat lon lat lon = 0) (h : Scored rt keys a now ref db db') :
    firing rt keys a threshold db' = firing rt keys a threshold db := by
  unfold firing
  obtain ⟨hanomaly, -⟩ := geoFinding_again now hvel hself (db keys.session)
  rw [h.burst, members_zset, ScoredSet.slide_slide, h.session]
  simp only [hanomaly]

/-! ## Corresponding keyspaces -/

/-- The same value, and the same deadline if `exact`. -/
def EntryAlike (exact : Prop) (p a : Option Entry) : Prop :=
  p.map Entry.val = a.map Entry.val ∧ (exact → p = a)

/-- What the two runs hold under one replay key, as far as the visits still to come can tell: the same, or
a record's reference in the plain run and the decision of its event in the other. -/
def RefAlike (rest : List (Visit rt kafka)) (p a : Option Payload) : Prop :=
  (p = a ∧ ∀ v ∈ rest, a ≠ some (.text (decisionRef v.eventId))) ∨
  ∃ ref e, p = some (.text ref) ∧ a = some (.text (decisionRef e)) ∧
    ∀ v ∈ rest, v.ref ≠ ref ∧ v.eventId ≠ e ∧ v.ref ≠ decisionRef e ∧ ref ≠ decisionRef v.eventId

/-- Corresponding keyspaces of the plain run and the run that asks. -/
structure Alike (exact : Prop) (rest : List (Visit rt kafka)) (plain asked : Db) : Prop where
  quarantine : ∀ u, plain (quarantineKey u) = asked (quarantineKey u)
  burst : ∀ u, EntryAlike exact (plain (burstKey u)) (asked (burstKey u))
  session : ∀ u, EntryAlike exact (plain (sessionKey u)) (asked (sessionKey u))
  replay : ∀ h, RefAlike rest (storedRef plain (replayKey h)) (storedRef asked (replayKey h))

variable {exact : Prop} {p a' : Option Entry} {vs : List (Visit rt kafka)} {plain asked plain' asked' : Db}

theorem EntryAlike.members (h : EntryAlike exact p a') : members p = members a' := by
  obtain ⟨h, -⟩ := h
  rcases p with _ | ⟨v, t⟩ <;> rcases a' with _ | ⟨v', t'⟩
  · rfl
  · cases h
  · cases h
  · obtain rfl : v = v' := Option.some.inj h
    cases v <;> rfl

theorem EntryAlike.fields (h : EntryAlike exact p a') : fields p = fields a' := by
  obtain ⟨h, -⟩ := h
  rcases p with _ | ⟨v, t⟩ <;> rcases a' with _ | ⟨v', t'⟩
  · rfl
  · cases h
  · cases h
  · obtain rfl : v = v' := Option.some.inj h
    cases v <;> rfl

/-- A reference other than the event's decision never exempts it as prescored. -/
theorem replayStatusOf_ne_prescored {stored : Option Payload}
    (h : stored ≠ some (.text (decisionRef a.eventId))) : replayStatusOf stored a ≠ .prescored := by
  rcases stored with _ | s | j
  · simp [replayStatusOf]
  · have hs : s ≠ decisionRef a.eventId := fun heq => h (by rw [heq])
    simp only [replayStatusOf, replayVerdict, if_neg hs]
    split <;> simp
  · simp [replayStatusOf, replayVerdict]

namespace RefAlike

variable {s t : Option Payload}

/-- The next record gets the same status in both runs, and is not prescored in either. -/
theorem status (cfg : RedisConfig) (ts : ℚ) (h : RefAlike (v :: vs) s t) :
    replayStatusOf s (v.args cfg ts) = replayStatusOf t (v.args cfg ts) ∧
      replayStatusOf t (v.args cfg ts) ≠ .prescored ∧ t ≠ some (.text (decisionRef v.eventId)) := by
  rcases h with ⟨rfl, hown⟩ | ⟨ref, e, rfl, rfl, hrest⟩
  · have hv := hown v (by simp)
    exact ⟨rfl, replayStatusOf_ne_prescored hv, hv⟩
  · obtain ⟨href, he, hdec, hrefdec⟩ := hrest v (by simp)
    have hne : decisionRef e ≠ decisionRef v.eventId := fun heq => he (decisionRef_injective heq).symm
    have hv : (some (.text (decisionRef e)) : Option Payload) ≠ some (.text (decisionRef v.eventId)) := by
      simpa using hne
    refine ⟨?_, replayStatusOf_ne_prescored hv, hv⟩
    simp only [replayStatusOf, replayVerdict, txArgs, if_neg href.symm, if_neg hdec.symm, if_neg hrefdec,
      if_neg hne]

theorem tail (h : RefAlike (v :: vs) s t) : RefAlike vs s t := by
  rcases h with ⟨heq, hown⟩ | ⟨ref, e, hs, ht, hrest⟩
  · exact Or.inl ⟨heq, fun u hu => hown u (by simp [hu])⟩
  · exact Or.inr ⟨ref, e, hs, ht, fun u hu => hrest u (by simp [hu])⟩

/-- A script call stores a reference in both runs or in neither. -/
theorem store {x y : Payload} (h : RefAlike vs s t) (hnew : RefAlike vs (some x) (some y)) :
    RefAlike vs (some (s.getD x)) (some (t.getD y)) := by
  rcases h with ⟨rfl, hown⟩ | ⟨ref, e, rfl, rfl, hrest⟩
  · cases s with
    | none => exact hnew
    | some z => exact Or.inl ⟨rfl, hown⟩
  · exact Or.inr ⟨ref, e, rfl, rfl, hrest⟩

end RefAlike

namespace Alike

theorem tail (h : Alike exact (v :: vs) plain asked) : Alike exact vs plain asked :=
  ⟨h.quarantine, h.burst, h.session, fun hash => (h.replay hash).tail⟩

/-- Keyspaces that agree with corresponding ones on the tracked keys correspond. -/
theorem congr (h : Alike exact vs plain asked) (hp : ∀ k ∈ trackedKeys, plain' k = plain k)
    (ha : ∀ k ∈ trackedKeys, asked' k = asked k) : Alike exact vs plain' asked' where
  quarantine u := by
    rw [hp _ (quarantineKey_mem_trackedKeys u), ha _ (quarantineKey_mem_trackedKeys u), h.quarantine]
  burst u := by
    rw [hp _ (burstKey_mem_trackedKeys u), ha _ (burstKey_mem_trackedKeys u)]
    exact h.burst u
  session u := by
    rw [hp _ (sessionKey_mem_trackedKeys u), ha _ (sessionKey_mem_trackedKeys u)]
    exact h.session u
  replay hash := by
    rw [storedRef, storedRef, hp _ (replayKey_mem_trackedKeys hash), ha _ (replayKey_mem_trackedKeys hash)]
    exact h.replay hash

/-- In corresponding keyspaces the same findings fire. -/
theorem firing_eq (h : Alike exact vs plain asked) (tx : TransactionEvent) (threshold : ℤ) :
    firing rt (txKeys rt tx) a threshold plain = firing rt (txKeys rt tx) a threshold asked := by
  have hburst : members (plain (txKeys rt tx).burst) = members (asked (txKeys rt tx).burst) :=
    (h.burst tx.userId).members
  have hsession : fields (plain (txKeys rt tx).session) = fields (asked (txKeys rt tx).session) :=
    (h.session tx.userId).fields
  rw [firing, firing, hburst, hsession]

/-- A script call in both runs, with the same transaction, keeps the correspondence. -/
theorem scored {nowP nowA : ℕ} {refP refA : String} (h : Alike exact (v :: vs) plain asked)
    (hP : Scored rt v.keys a nowP refP plain plain') (hA : Scored rt v.keys a nowA refA asked asked')
    (hnow : exact → nowP = nowA) (href : RefAlike vs (some (.text refP)) (some (.text refA))) :
    Alike exact vs plain' asked' where
  quarantine u := by
    have hr : quarantineKey u ≠ v.keys.replay :=
      append_ne_of_incomparable (p := quarantineKeyPrefix) (q := replayKeyPrefix) (by decide) _ _
    have hb : quarantineKey u ≠ v.keys.burst :=
      append_ne_of_incomparable (p := quarantineKeyPrefix) (q := burstKeyPrefix) (by decide) _ _
    have hs : quarantineKey u ≠ v.keys.session :=
      append_ne_of_incomparable (p := quarantineKeyPrefix) (q := sessionKeyPrefix) (by decide) _ _
    rw [hP.frame _ (quarantineKey_mem_trackedKeys u) hr hb hs,
      hA.frame _ (quarantineKey_mem_trackedKeys u) hr hb hs, h.quarantine]
  burst u := by
    by_cases hu : burstKey u = v.keys.burst
    · have hmem : members (plain v.keys.burst) = members (asked v.keys.burst) := (h.burst _).members
      rw [hu, hP.burst, hA.burst, hmem]
      exact ⟨rfl, fun hexact => by rw [hnow hexact]⟩
    · have hr : burstKey u ≠ v.keys.replay :=
        append_ne_of_incomparable (p := burstKeyPrefix) (q := replayKeyPrefix) (by decide) _ _
      have hs : burstKey u ≠ v.keys.session :=
        append_ne_of_incomparable (p := burstKeyPrefix) (q := sessionKeyPrefix) (by decide) _ _
      rw [hP.frame _ (burstKey_mem_trackedKeys u) hr hu hs, hA.frame _ (burstKey_mem_trackedKeys u) hr hu hs]
      exact h.burst u
  session u := by
    by_cases hu : sessionKey u = v.keys.session
    · have hfields : fields (plain v.keys.session) = fields (asked v.keys.session) := (h.session _).fields
      rw [hu, hP.session, hA.session, hfields]
      unfold sessionAfter
      split
      · exact ⟨rfl, fun hexact => by rw [hnow hexact]⟩
      · exact h.session _
    · have hr : sessionKey u ≠ v.keys.replay :=
        append_ne_of_incomparable (p := sessionKeyPrefix) (q := replayKeyPrefix) (by decide) _ _
      have hb : sessionKey u ≠ v.keys.burst :=
        append_ne_of_incomparable (p := sessionKeyPrefix) (q := burstKeyPrefix) (by decide) _ _
      rw [hP.frame _ (sessionKey_mem_trackedKeys u) hr hb hu,
        hA.frame _ (sessionKey_mem_trackedKeys u) hr hb hu]
      exact h.session u
  replay hash := by
    by_cases hu : replayKey hash = v.keys.replay
    · rw [hu, hP.replay, hA.replay]
      exact (h.replay _).tail.store href
    · have hb : replayKey hash ≠ v.keys.burst :=
        append_ne_of_incomparable (p := replayKeyPrefix) (q := burstKeyPrefix) (by decide) _ _
      have hs : replayKey hash ≠ v.keys.session :=
        append_ne_of_incomparable (p := replayKeyPrefix) (q := sessionKeyPrefix) (by decide) _ _
      rw [storedRef, storedRef, hP.frame _ (replayKey_mem_trackedKeys hash) hu hb hs,
        hA.frame _ (replayKey_mem_trackedKeys hash) hu hb hs]
      exact (h.replay hash).tail

end Alike

/-! ## One visit -/

/-- The tracked keys after a record is handled. -/
theorem handle_frame {k : String} (hk : k ∈ trackedKeys) :
    v.handle cfg db k = (scanTx rt cfg v.now v.record.tx v.ref db).2 k :=
  handleBatch_tx_frame cfg v.now v.record db (notMem_cooldownKeys hk)

/-- The effect of handling a record that is not prescored. -/
theorem scored_handle (hts : v.record.tx.timestamp.timestamp rt = .ok ts)
    (hfree : db (quarantineKey v.record.tx.userId) = none)
    (hstatus : replayStatusOf (storedRef db v.keys.replay) (v.args cfg ts) ≠ .prescored) :
    Scored rt v.keys (v.args cfg ts) v.now v.ref db (v.handle cfg db) := by
  refine (scored_txCheck rt v.now (txKeys_distinct rt v.record.tx) hstatus).congr fun k hk => ?_
  rw [handle_frame hk, scanTx_free _ _ _ hts hfree]

/-- A prescored record leaves the tracked keys alone. -/
theorem handle_prescored (hts : v.record.tx.timestamp.timestamp rt = .ok ts)
    (hfree : db (quarantineKey v.record.tx.userId) = none)
    (hstatus : replayStatusOf (storedRef db v.keys.replay) (v.args cfg ts) = .prescored) {k : String}
    (hk : k ∈ trackedKeys) : v.handle cfg db k = db k := by
  rw [handle_frame hk, scanTx_free _ _ _ hts hfree]
  simp only [txCheck_prescored hstatus]

/-- The arguments of `Decide` are those of the record, under its own reference. -/
theorem engine_txArgs {call : Engine.Call} {g : Engine.Transaction} {tx : TransactionEvent}
    (hcfg : SameConfig gcfg cfg) (hsame : SameEvent rt call g tx) (ref : String) :
    Engine.txArgs gcfg (g.stamped call) =
      { txArgs cfg tx ref (g.stamped call).nowTs with recordRef := decisionRef tx.eventId } := by
  simp only [Engine.txArgs, txArgs, hsame.stamped_eventId, hcfg.replayTtl, hcfg.burstWindow, hcfg.burstKeyTtl,
    hcfg.sessionTtl, hcfg.maxVelocity, hsame.latitude, hsame.longitude]

theorem engine_txKeys {call : Engine.Call} {g : Engine.Transaction} {tx : TransactionEvent}
    (hsame : SameEvent rt call g tx) : Engine.txKeys rt (g.stamped call) = txKeys rt tx := by
  simp only [Engine.txKeys, txKeys, hsame.replayHash, Engine.stamped_userId, hsame.userId]

/-- A record nobody asked about is handled alike in both runs. -/
theorem visit_unasked (hvs : ∀ u ∈ vs, v.ref ≠ decisionRef u.eventId)
    (h : Alike exact (v :: vs) plain asked) :
    v.identities cfg plain = v.identities cfg asked ∧
      Alike exact vs (v.handle cfg plain) (v.handle cfg asked) := by
  have hq := h.quarantine v.record.tx.userId
  -- a blocked record and one whose event time cannot be computed change no tracked key
  have hskip : ∀ out : Except PyError (List DetectionEvent),
      (∀ {db : Db}, db (quarantineKey v.record.tx.userId) = asked (quarantineKey v.record.tx.userId) →
        scanTx rt cfg v.now v.record.tx v.ref db = (out, db)) →
      v.identities cfg plain = v.identities cfg asked ∧
        Alike exact vs (v.handle cfg plain) (v.handle cfg asked) := by
    intro out hscan
    refine ⟨?_, h.tail.congr (fun k hk => ?_) (fun k hk => ?_)⟩
    · rw [Visit.identities, Visit.identities, recordCandidates_tx, recordCandidates_tx, hscan hq, hscan rfl]
    · rw [handle_frame hk, hscan hq]
    · rw [handle_frame hk, hscan rfl]
  cases hfree : asked (quarantineKey v.record.tx.userId) with
  | some e =>
      refine hskip (.ok []) fun hdb => ?_
      simp only [scanTx, hdb, hfree, Option.isSome_some, if_true]
  | none =>
      cases hts : v.record.tx.timestamp.timestamp rt with
      | error e =>
          refine hskip (.error e) fun hdb => ?_
          simp only [scanTx, hdb, hfree, Option.isSome_none, Bool.false_eq_true, if_false, hts]
      | ok ts =>
          rw [hfree] at hq
          obtain ⟨hstatus, hpre, -⟩ := (h.replay (v.record.tx.replayHash rt)).status cfg ts
          refine ⟨?_, h.scored (scored_handle hts hq (hstatus ▸ hpre)) (scored_handle hts hfree hpre)
            (fun _ => rfl) (Or.inl ⟨rfl, fun u hu => by simpa using hvs u hu⟩)⟩
          rw [identities_scored hts hq (hstatus ▸ hpre), identities_scored hts hfree hpre, h.firing_eq]
          simp only [txKeys, hstatus]

section asked

variable {q : Inquiry} (hsame : SameEvent rt q.call q.transaction v.record.tx)
  (hids : ¬ (q.transaction.eventId = "" ∨ q.transaction.userId = ""))
  (hrule : Engine.refusal (q.transaction.stamped q.call)
    (Engine.activeRules asked (q.transaction.stamped q.call)) = none)
  (hcfg : SameConfig gcfg cfg)

include hsame hcfg in
/-- `Decide` sees a first delivery or a replay. -/
theorem decide_status (h : storedRef asked v.keys.replay ≠ some (.text (decisionRef v.eventId))) :
    replayStatusOf (storedRef asked (Engine.txKeys rt (q.transaction.stamped q.call)).replay)
        (Engine.txArgs gcfg (q.transaction.stamped q.call))
      = if storedRef asked v.keys.replay = none then .first else .replay := by
  rw [engine_txKeys hsame, engine_txArgs hcfg hsame v.ref]
  rcases hs : storedRef asked (txKeys rt v.record.tx).replay with _ | s | j
  · simp [replayStatusOf]
  · have hne : s ≠ decisionRef v.record.tx.eventId := fun heq => h (by rw [hs, heq])
    simp [replayStatusOf, replayVerdict, hne, txArgs]
  · simp [replayStatusOf, replayVerdict]

include hsame hids hrule hcfg in
/-- The effect of a call of `Decide` that no rule refuses. -/
theorem scored_decide (h : storedRef asked v.keys.replay ≠ some (.text (decisionRef v.eventId))) :
    Scored rt v.keys (v.args cfg (q.transaction.stamped q.call).nowTs) q.now (decisionRef v.eventId) asked
      (Engine.decide rt gcfg q.now q.call q.transaction asked).2 := by
  have hstatus := decide_status hsame hcfg h
  rw [engine_txKeys hsame, engine_txArgs hcfg hsame v.ref] at hstatus
  have hscript := scored_txCheck rt q.now (txKeys_distinct rt v.record.tx) (by
    rw [hstatus]
    split <;> simp)
  refine (hscript.congr fun k hk => ?_).of_recordRef
  rw [Engine.decide_frame hids hrule (ne_resultKey hk _), Engine.runTxCheck, engine_txKeys hsame,
    engine_txArgs hcfg hsame v.ref]

include hsame hids hrule hcfg in
/-- After a first delivery to `Decide`, the record re-emits what the script found. -/
theorem identities_asked_first (hown : v.ref ≠ decisionRef v.eventId)
    (hfree : asked (quarantineKey v.record.tx.userId) = none) (hnone : storedRef asked v.keys.replay = none) :
    let db' := (Engine.decide rt gcfg q.now q.call q.transaction asked).2
    replayStatusOf (storedRef db' v.keys.replay) (v.args cfg (q.transaction.stamped q.call).nowTs) = .prescored ∧
    v.identities cfg db' = .ok (identitiesOf rt v.record.tx v.ref
      {t | t ∈ firing rt v.keys (v.args cfg (q.transaction.stamped q.call).nowTs) cfg.burstThreshold asked}) := by
  intro db'
  have hne : storedRef asked v.keys.replay ≠ some (.text (decisionRef v.eventId)) := by simp [hnone]
  have hscored : Scored rt v.keys (v.args cfg (q.transaction.stamped q.call).nowTs) q.now _ asked db' :=
    scored_decide hsame hids hrule hcfg hne
  have hstatus : replayStatusOf (storedRef db' v.keys.replay)
      (v.args cfg (q.transaction.stamped q.call).nowTs) = .prescored := by
    rw [hscored.replay, hnone]
    simp [replayStatusOf, replayVerdict, txArgs, hown.symm]
  have hfirst := decide_status hsame hcfg hne
  rw [if_pos hnone] at hfirst
  have hreply : (Engine.runTxCheck rt gcfg q.now (q.transaction.stamped q.call) asked).1.replayStatus = .first := by
    rw [Engine.runTxCheck, txCheck_replayStatus (Engine.txKeys_distinct _ _), hfirst]
  have hdoc : payload (db' (resultKey v.record.tx.eventId)) = some (.json (Engine.scored gcfg q.call
      (q.transaction.stamped q.call)
      (Engine.runTxCheck rt gcfg q.now (q.transaction.stamped q.call) asked).1).toJson) := by
    simp only [db', Engine.decide_scored hids hrule (by rw [hreply]; decide)]
    rw [← hsame.stamped_eventId]
    exact Engine.storeDecision_marshal (Engine.marshal_scored _ (by rw [hreply]; decide)) _
  have hfree' := hscored.quarantine hfree
  have htypes : ∀ t, t ∈ (Engine.interpret gcfg (q.transaction.stamped q.call)
      (Engine.runTxCheck rt gcfg q.now (q.transaction.stamped q.call) asked).1).map Engine.Reason.type ↔
      t ∈ firing rt v.keys (v.args cfg (q.transaction.stamped q.call).nowTs) cfg.burstThreshold asked := by
    intro t
    rw [Engine.mem_interpret_types _ (by rw [hfirst]; decide) t, hfirst, engine_txKeys hsame,
      engine_txArgs hcfg hsame v.ref, hcfg.burstThreshold, firing_recordRef]
    simp
  refine ⟨hstatus, ?_⟩
  rw [identities_prescored hsame.timestamp hfree' hstatus hdoc]
  simp only [htypes]

end asked

/-- A visit keeps the correspondence, and its record has the same candidates in both runs. -/
theorem visit_alike (hcfg : SameConfig gcfg cfg) (hvel : 0 ≤ cfg.geoMaxVelocityKmh)
    (hself : ∀ lat lon, haversineKm rt lat lon lat lon = 0) (hown : v.ref ≠ decisionRef v.eventId)
    (hvs : ∀ u ∈ vs, u.ref ≠ v.ref ∧ u.eventId ≠ v.eventId ∧ u.ref ≠ decisionRef v.eventId ∧
      v.ref ≠ decisionRef u.eventId)
    (hnow : exact → ∀ q ∈ v.inquiry, q.now = v.now) (h : Alike exact (v :: vs) plain asked) :
    v.identities cfg plain = v.identities cfg (v.ask gcfg asked) ∧
      Alike exact vs (v.handle cfg plain) (v.handle cfg (v.ask gcfg asked)) := by
  have hunasked : v.ask gcfg asked = asked → v.identities cfg plain = v.identities cfg (v.ask gcfg asked) ∧
      Alike exact vs (v.handle cfg plain) (v.handle cfg (v.ask gcfg asked)) := by
    intro hask
    rw [hask]
    exact visit_unasked (fun u hu => (hvs u hu).2.2.2) h
  cases hinq : v.inquiry with
  | none => exact hunasked (by simp only [Visit.ask, hinq])
  | some q =>
      have hsame := v.same q hinq
      have hask : v.ask gcfg asked = (Engine.decide rt gcfg q.now q.call q.transaction asked).2 := by
        simp only [Visit.ask, hinq]
      by_cases hids : q.transaction.eventId = "" ∨ q.transaction.userId = ""
      · exact hunasked (by rw [hask, Engine.decide_missingIds hids])
      cases hrule : Engine.refusal (q.transaction.stamped q.call)
          (Engine.activeRules asked (q.transaction.stamped q.call)) with
      | some r =>
          obtain ⟨reason, v⟩ := r
          exact hunasked (by rw [hask, Engine.decide_refused hids hrule])
      | none =>
          -- the script ran: the user is free in both runs
          have hfree : asked (quarantineKey v.record.tx.userId) = none := by
            cases hq : asked (quarantineKey v.record.tx.userId) with
            | none => rfl
            | some e => simp [Engine.refusal, Engine.activeRules, hsame.userId, hq] at hrule
          have hfreeP := (h.quarantine v.record.tx.userId).trans hfree
          obtain ⟨hstatus, hpre, hne⟩ := (h.replay (v.record.tx.replayHash rt)).status cfg
            (q.transaction.stamped q.call).nowTs
          have hstatus : replayStatusOf (storedRef plain v.keys.replay)
              (v.args cfg (q.transaction.stamped q.call).nowTs) = replayStatusOf (storedRef asked v.keys.replay)
                (v.args cfg (q.transaction.stamped q.call).nowTs) := hstatus
          have hP := scored_handle hsame.timestamp hfreeP (hstatus ▸ hpre)
          have hidP := identities_scored hsame.timestamp hfreeP (hstatus ▸ hpre)
          have hA := scored_decide hsame hids hrule hcfg hne
          have href : RefAlike vs (some (.text v.ref)) (some (.text (decisionRef v.eventId))) :=
            Or.inr ⟨v.ref, v.eventId, rfl, rfl, hvs⟩
          rw [hask]
          cases hstored : storedRef asked v.keys.replay with
          | none =>
              -- first delivery: the record is prescored and re-emits the decision
              obtain ⟨hpresc, hidA⟩ := identities_asked_first hsame hids hrule hcfg hown hfree hstored
              have hfree' := hA.quarantine hfree
              have hfirst : replayStatusOf (storedRef plain v.keys.replay)
                  (v.args cfg (q.transaction.stamped q.call).nowTs) = .first := by
                rw [hstatus, hstored]
                rfl
              refine ⟨?_, h.scored hP (hA.congr fun k hk => handle_prescored hsame.timestamp hfree' hpresc hk)
                (fun he => (hnow he q hinq).symm) href⟩
              rw [hidP, hidA, h.firing_eq]
              simp only [hfirst, reduceCtorEq, and_false, false_or]
          | some x =>
              -- the payload was seen before: the script runs twice
              have hfree' := hA.quarantine hfree
              have hkept : storedRef (Engine.decide rt gcfg q.now q.call q.transaction asked).2 v.keys.replay
                  = storedRef asked v.keys.replay := by
                rw [hA.replay, hstored, Option.getD_some]
              have hpre' : replayStatusOf (storedRef (Engine.decide rt gcfg q.now q.call q.transaction asked).2
                  v.keys.replay) (v.args cfg (q.transaction.stamped q.call).nowTs) ≠ .prescored := by
                rw [hkept]
                exact hpre
              refine ⟨?_, h.scored hP (hA.again hvel hself (scored_handle hsame.timestamp hfree' hpre'))
                (fun _ => rfl) href⟩
              rw [hidP, identities_scored hsame.timestamp hfree' hpre', hkept, hA.firing_again hvel hself,
                h.firing_eq]
              simp only [hstatus]

/-- Corresponding keyspaces lead to the same candidates and to corresponding keyspaces. -/
theorem askVisits_alike (hcfg : SameConfig gcfg cfg) (hvel : 0 ≤ cfg.geoMaxVelocityKmh)
    (hself : ∀ lat lon, haversineKm rt lat lon lat lon = 0) {visits : List (Visit rt kafka)}
    (hdistinct : visits.Pairwise fun v u => u.ref ≠ v.ref ∧ u.eventId ≠ v.eventId)
    (hrefs : ∀ u ∈ visits, ∀ v ∈ visits, u.ref ≠ decisionRef v.eventId)
    (hnow : exact → ∀ v ∈ visits, ∀ q ∈ v.inquiry, q.now = v.now) (h : Alike exact visits plain asked) :
    (askVisits gcfg cfg visits asked).1 = (handleVisits cfg visits plain).1 ∧
      Alike exact ([] : List (Visit rt kafka)) (handleVisits cfg visits plain).2
        (askVisits gcfg cfg visits asked).2 := by
  induction visits generalizing plain asked with
  | nil => exact ⟨rfl, h⟩
  | cons v vs ih =>
      obtain ⟨hv, hvs⟩ := List.pairwise_cons.mp hdistinct
      obtain ⟨hids, hnext⟩ := visit_alike hcfg hvel hself (hrefs v (by simp) v (by simp))
        (fun u hu => ⟨(hv u hu).1, (hv u hu).2, hrefs u (by simp [hu]) v (by simp),
          hrefs v (by simp) u (by simp [hu])⟩)
        (fun he => hnow he v (by simp)) h
      obtain ⟨hrest, hend⟩ := ih hvs (fun u hu w hw => hrefs u (by simp [hu]) w (by simp [hw]))
        (fun he u hu => hnow he u (by simp [hu])) hnext
      exact ⟨by rw [askVisits, handleVisits, hids, hrest], hend⟩

/-- Asking the decision service first changes neither the candidates of any record nor the windows and
sessions: for every sequence of events with different ids, in different records, none of whose references
is `decision:{event_id}` of an event of the sequence, from every keyspace in which no replay key holds
such a decision. Deadlines agree as well if each call and its record meet the same server time. -/
theorem askVisits_transparent (hcfg : SameConfig gcfg cfg) (hvel : 0 ≤ cfg.geoMaxVelocityKmh)
    (hself : ∀ lat lon, haversineKm rt lat lon lat lon = 0) {visits : List (Visit rt kafka)}
    (hevents : visits.Pairwise fun v u => u.eventId ≠ v.eventId)
    (hrecords : visits.Pairwise fun v u =>
      (u.record.record.topic, u.record.record.partition, u.record.record.offset)
        ≠ (v.record.record.topic, v.record.record.partition, v.record.record.offset))
    (hrefs : ∀ u ∈ visits, ∀ v ∈ visits, u.ref ≠ decisionRef v.eventId)
    (hdb : ∀ v ∈ visits, ∀ hash, storedRef db (replayKey hash) ≠ some (.text (decisionRef v.eventId))) :
    (askVisits gcfg cfg visits db).1 = (handleVisits cfg visits db).1 ∧
    ∀ user, ∀ k ∈ [burstKey user, sessionKey user],
      ((askVisits gcfg cfg visits db).2 k).map Entry.val = ((handleVisits cfg visits db).2 k).map Entry.val ∧
      ((∀ v ∈ visits, ∀ q ∈ v.inquiry, q.now = v.now) →
        (askVisits gcfg cfg visits db).2 k = (handleVisits cfg visits db).2 k) := by
  have hdistinct : visits.Pairwise fun v u => u.ref ≠ v.ref ∧ u.eventId ≠ v.eventId := by
    refine (hrecords.and hevents).imp fun {v u} huv => ⟨fun href => huv.1 ?_, huv.2⟩
    obtain ⟨htopic, hpartition, hoffset⟩ := recordRef_inj.mp href
    rw [htopic, hpartition, hoffset]
  have hstart : Alike (∀ v ∈ visits, ∀ q ∈ v.inquiry, q.now = v.now) visits db db :=
    ⟨fun _ => rfl, fun _ => ⟨rfl, fun _ => rfl⟩, fun _ => ⟨rfl, fun _ => rfl⟩,
      fun hash => Or.inl ⟨rfl, fun v hv => hdb v hv hash⟩⟩
  obtain ⟨hsame, hend⟩ := askVisits_alike hcfg hvel hself hdistinct hrefs id hstart
  refine ⟨hsame, fun user k hk => ?_⟩
  rcases List.mem_pair.mp hk with rfl | rfl
  · exact ⟨(hend.burst user).1.symm, fun hnow => ((hend.burst user).2 hnow).symm⟩
  · exact ⟨(hend.session user).1.symm, fun hnow => ((hend.session user).2 hnow).symm⟩

end

namespace Sample

/-- The record at `offset` of a topic, with `tx eventId`, asked about first or not. -/
def visit (topic : String) (h : topic ≠ "auth-events") (offset : ℕ) (eventId : String) (asked : Bool) :
    Visit runtime {} where
  record := ⟨⟨topic, 0, offset, value eventId⟩, tx eventId, h, rfl⟩
  now := 0
  inquiry := if asked then some ⟨transaction eventId, call, 0⟩ else none
  same q hq := by
    obtain ⟨-, rfl⟩ : asked = true ∧ ⟨transaction eventId, call, 0⟩ = q := by simpa using hq
    exact sameEvent eventId

end Sample

/-- Two events with one payload, both asked about. -/
theorem askVisits_transparent_repeated :
    let visits := [Sample.visit "tx-events" (by decide) 0 "e1" true, Sample.visit "tx-events" (by decide) 1 "e2" true]
    (askVisits {} {} visits fun _ => none).1 = (handleVisits {} visits fun _ => none).1 := by
  intro visits
  have hcfg : SameConfig {} {} := ⟨rfl, rfl, rfl, rfl, rfl, rfl⟩
  refine (askVisits_transparent hcfg (by norm_num) ?_ ?_ ?_ ?_ ?_).1
  · intro lat lon
    simp [haversineKm, Sample.runtime]
  · exact List.pairwise_pair.mpr (show ("e2" : String) ≠ "e1" by decide)
  · exact List.pairwise_pair.mpr (show (("tx-events" : String), 0, 1) ≠ ("tx-events", 0, 0) by decide)
  · intro u hu v hv
    rcases List.mem_pair.mp hu with rfl | rfl <;> rcases List.mem_pair.mp hv with rfl | rfl <;> decide
  · intro v _ hash
    simp [storedRef]

/-- On a topic named `decision`, a record can carry the reference of a decision: asking about the event
`0:7` first hides that the record `decision:0:7` replays its payload. -/
theorem askVisits_not_transparent_on_topic_decision :
    let visits := [Sample.visit "decision" (by decide) 5 "0:7" true, Sample.visit "decision" (by decide) 7 "e2" false]
    (visits.Pairwise fun v u => u.eventId ≠ v.eventId) ∧
      (askVisits {} {} visits fun _ => none).1 ≠ (handleVisits {} visits fun _ => none).1 := by
  intro visits
  refine ⟨List.pairwise_pair.mpr (show ("e2" : String) ≠ "0:7" by decide), fun heq => ?_⟩
  let first := Sample.visit "decision" (by decide) 5 "0:7" true
  let second := Sample.visit "decision" (by decide) 7 "e2" false
  have hsecond : second.identities {} (first.handle {} (first.ask {} fun _ => none))
      = second.identities {} (first.handle {} fun _ => none) := by
    have htail := congrArg (fun l => l[1]?) heq
    exact Option.some.inj htail
  obtain ⟨S, hS, htypes⟩ := identities_types {} second (first.handle {} fun _ => none)
    (show _ = some ["replay_attack"] by decide +kernel)
  obtain ⟨S', hS', htypes'⟩ := identities_types {} second (first.handle {} (first.ask {} fun _ => none))
    (show _ = some [] by decide +kernel)
  rw [hS, hS'] at hsecond
  rw [← Except.ok.inj hsecond, htypes'] at htypes
  have hmem : "replay_attack" ∈ {t : String | t ∈ ([] : List String)} := by
    rw [htypes]
    simp
  cases hmem

end Rtace
