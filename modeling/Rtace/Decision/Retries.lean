import Rtace.Decision.SelfReplay
import Rtace.Decision.Transparent
import Rtace.Detection.Users

/-!
# Concurrent retries of one decision

Any number of calls of `Decide` for one transaction, interleaved command by command with each other and with
calls for other transactions, any of which may fail on the way. The script acts on the part of the keyspace
it reads as a function that repeating does not change, so every call finds the same reasons.
-/

namespace Rtace

open Lib Redis

/-! ## What the script reads -/

/-- What `tx_check` reads: the stored reference, the window and the session. -/
@[ext]
structure View where
  ref : Option Payload
  window : ScoredSet String ℚ
  session : Option Flt × Option Flt × Option ℚ

/-- The view of a keyspace under the keys of a call. -/
def view (keys : TxKeys) (db : Db) : View := ⟨storedRef db keys.replay, members (db keys.burst), fields (db keys.session)⟩

namespace View

/-- What the script makes of it when it scores. -/
def next (rt : Runtime) (a : TxArgs) (v : View) : View where
  ref := some (v.ref.getD (.text a.recordRef))
  window := v.window.slide a.burstCutoff a.nowTs a.eventId
  session :=
    if (geoFinding rt a v.session).status = .baseline ∨ (geoFinding rt a v.session).status = .ok then
      (some a.lat, some a.lon, some a.nowTs)
    else v.session

/-- What it replies then. -/
def reply (rt : Runtime) (a : TxArgs) (v : View) : TxReply :=
  let g := geoFinding rt a v.session
  ⟨replayStatusOf v.ref a, v.ref.getD (.text a.recordRef), (v.window.slide a.burstCutoff a.nowTs a.eventId).card,
    g.status, fmt g.distance, fmt g.elapsed, fmt g.velocity, g.prevLat, g.prevLon⟩

end View

section

variable {rt : Runtime} {a : TxArgs} {keys : TxKeys} {db : Db}

/-- The script replies from its view and takes it to the next one. -/
theorem txCheck_view (now : ℕ) (hd : keys.Distinct) (h : replayStatusOf (view keys db).ref a ≠ .prescored) :
    (txCheck rt now keys a db).1 = (view keys db).reply rt a ∧
      view keys (txCheck rt now keys a db).2 = (view keys db).next rt a := by
  have hscored : txCheck rt now keys a db = _ := txCheck_scored hd h
  refine ⟨by rw [hscored]; rfl, ?_⟩
  have href : storedRef (txCheck rt now keys a db).2 keys.replay = ((view keys db).next rt a).ref :=
    storedRef_txCheck rt now a db hd
  have hwindow : members ((txCheck rt now keys a db).2 keys.burst) = ((view keys db).next rt a).window := by
    rw [hscored]
    simp only [Function.update_of_ne hd.burst_session, Function.update_self, members_zset]
    rfl
  have hsession : fields ((txCheck rt now keys a db).2 keys.session) = ((view keys db).next rt a).session := by
    rw [hscored]
    simp only [Function.update_self, sessionAfter, apply_ite fields, fields_hash]
    rfl
  rw [view, href, hwindow, hsession]

variable (hvel : 0 ≤ a.maxVelocity) (hself : ∀ lat lon, haversineKm rt lat lon lat lon = 0)
include hvel hself

/-- A second look finds the session of the first one clean, or just as it was. -/
theorem geoFinding_next (v : View) :
    ((geoFinding rt a v.session).status = .baseline ∨ (geoFinding rt a v.session).status = .ok) ∧
        (geoFinding rt a (v.next rt a).session).status = .ok ∨
      (v.next rt a).session = v.session := by
  by_cases hclean : (geoFinding rt a v.session).status = .baseline ∨ (geoFinding rt a v.session).status = .ok
  · refine Or.inl ⟨hclean, ?_⟩
    simp only [View.next, if_pos hclean]
    exact geoFinding_self hvel hself
  · exact Or.inr (if_neg hclean)

/-- Running the script again changes nothing. -/
theorem View.next_next (v : View) : (v.next rt a).next rt a = v.next rt a := by
  refine View.ext rfl (ScoredSet.slide_slide _ _ _ _) ?_
  rcases geoFinding_next hvel hself v with ⟨hclean, hok⟩ | hkept
  · simp only [View.next, if_pos hclean] at hok ⊢
    rw [if_pos (Or.inr hok)]
  · have hagain : ((v.next rt a).next rt a).session = (v.next rt a).session := by
      rw [View.next, hkept]
      exact hkept
    exact hagain

/-- A second look gives the same reasons. -/
theorem interpret_next (cfg : Engine.Config) (tx : Engine.Transaction) (v : View) :
    Engine.interpret cfg tx ((v.next rt a).reply rt a) = Engine.interpret cfg tx (v.reply rt a) := by
  have hreplay : ((v.next rt a).reply rt a).replayStatus = .replay ↔ (v.reply rt a).replayStatus = .replay :=
    replayStatusOf_again v.ref a (Or.inr rfl)
  have hcount : ((v.next rt a).reply rt a).burstCount = (v.reply rt a).burstCount :=
    congrArg ScoredSet.card (ScoredSet.slide_slide _ _ _ _)
  unfold Engine.interpret
  refine congrArg₂ (· ++ ·) (congrArg₂ (· ++ ·) (if_congr hreplay rfl rfl) (by rw [hcount])) ?_
  rcases geoFinding_next hvel hself v with ⟨hclean, hok⟩ | hkept
  · have hagain : ((v.next rt a).reply rt a).geoStatus ≠ .anomaly := by
      show (geoFinding rt a (v.next rt a).session).status ≠ .anomaly
      rw [hok]
      decide
    have hfirst : (v.reply rt a).geoStatus ≠ .anomaly := by
      show (geoFinding rt a v.session).status ≠ .anomaly
      rcases hclean with hclean | hclean <;> rw [hclean] <;> decide
    rw [if_neg hagain, if_neg hfirst]
  · exact if_congr (by simp only [View.reply, hkept]) (by simp only [View.reply, hkept]) rfl

end

/-! ## The machine -/

/-- The keys a call of `Decide` looks at. -/
def decideKeys (rt : Runtime) (tx : Engine.Transaction) : Set String :=
  {(Engine.txKeys rt tx).replay, (Engine.txKeys rt tx).burst, (Engine.txKeys rt tx).session, resultKey tx.eventId,
    quarantineKey tx.userId, stepUpKey tx.userId, ipBlockKey tx.ipAddress}

/-- One step of the calls for `tx`: the enforcement read, the script, the read of the stored verdict, the
write of the verdict. -/
inductive RetryStep (rt : Runtime) (cfg : Engine.Config) (tx : Engine.Transaction) (w : World) :
    Action → World → Prop
  | lookup (i : ℕ) (call : Engine.Call) (hi : w.tasks i = .idle) (hids : ¬ (tx.eventId = "" ∨ tx.userId = ""))
      (hrule : Engine.refusal (tx.stamped call) (Engine.activeRules w.db (tx.stamped call)) = none) :
      RetryStep rt cfg tx w .quiet (w.goto w.db i (.looked call))
  | refuse (i : ℕ) (call : Engine.Call) (reason : Engine.Reason) (v : Engine.Verdict) (hi : w.tasks i = .idle)
      (hids : ¬ (tx.eventId = "" ∨ tx.userId = ""))
      (hrule : Engine.refusal (tx.stamped call) (Engine.activeRules w.db (tx.stamped call)) = some (reason, v)) :
      RetryStep rt cfg tx w (.report (.decision (Engine.newDecision call [reason] reason.score v)))
        (w.goto w.db i .done)
  | script (i now : ℕ) (call : Engine.Call) (hi : w.tasks i = .looked call) :
      RetryStep rt cfg tx w .decideScript
        (w.goto (Engine.runTxCheck rt cfg now (tx.stamped call) w.db).2 i
          (afterScript call (Engine.runTxCheck rt cfg now (tx.stamped call) w.db).1))
  /-- The script took effect, its reply was lost. -/
  | scriptLost (i now : ℕ) (call : Engine.Call) (hi : w.tasks i = .looked call) :
      RetryStep rt cfg tx w .decideScript
        (w.goto (Engine.runTxCheck rt cfg now (tx.stamped call) w.db).2 i .done)
  | cached (i : ℕ) (call : Engine.Call) (r : TxReply) (d : Engine.Decision) (hi : w.tasks i = .retrying call r)
      (hd : (Engine.cachedDecision (tx.stamped call) w.db).1 = some d) :
      RetryStep rt cfg tx w (.report (.decision d)) (w.goto w.db i .done)
  /-- Nothing usable is stored, or the read failed: either way the event is scored again. -/
  | unanswered (i : ℕ) (call : Engine.Call) (r : TxReply) (hi : w.tasks i = .retrying call r) :
      RetryStep rt cfg tx w .quiet (w.goto w.db i (.unsaved call r))
  | store (i now : ℕ) (call : Engine.Call) (r : TxReply) (hi : w.tasks i = .unsaved call r) :
      RetryStep rt cfg tx w (.report (.decision (Engine.scored cfg call (tx.stamped call) r)))
        (w.goto (Engine.storeDecision cfg now (tx.stamped call) (Engine.scored cfg call (tx.stamped call) r) w.db).2
          i .done)
  /-- The write took effect, its reply was lost. -/
  | storeLost (i now : ℕ) (call : Engine.Call) (r : TxReply) (hi : w.tasks i = .unsaved call r) :
      RetryStep rt cfg tx w .quiet
        (w.goto (Engine.storeDecision cfg now (tx.stamped call) (Engine.scored cfg call (tx.stamped call) r) w.db).2
          i .done)
  /-- A command fails without effect, or the process dies. -/
  | fail (i : ℕ) : RetryStep rt cfg tx w .quiet (w.goto w.db i .done)
  /-- Somebody else writes other keys. -/
  | elsewhere (db : Db) (h : ∀ k ∈ decideKeys rt tx, db k = w.db k) : RetryStep rt cfg tx w .quiet ⟨db, w.tasks⟩

/-- A decision with these reasons, scored as `verdict` scores them. -/
structure Consistent (cfg : Engine.Config) (rs : List Engine.Reason) (d : Engine.Decision) : Prop where
  reasons : d.reasons = rs
  score : d.score = (Engine.verdict cfg rs).1
  verdict : d.verdict = (Engine.verdict cfg rs).2

section

variable {rt : Runtime} {cfg : Engine.Config} {tx : Engine.Transaction} {w w' : World} {a : Action}

theorem view_congr {keys : TxKeys} {db db' : Db} (hreplay : db' keys.replay = db keys.replay)
    (hburst : db' keys.burst = db keys.burst) (hsession : db' keys.session = db keys.session) :
    view keys db' = view keys db := by
  simp only [view, storedRef, hreplay, hburst, hsession]

/-- Storing a verdict is not seen by the script. -/
theorem view_storeDecision (now : ℕ) (d : Engine.Decision) (db : Db) :
    view (Engine.txKeys rt tx) (Engine.storeDecision cfg now tx d db).2 = view (Engine.txKeys rt tx) db := by
  have hframe : ∀ {k : String}, k ∈ detectionKeys → (Engine.storeDecision cfg now tx d db).2 k = db k := by
    intro k hk
    refine (Engine.footprint_storeDecision cfg now tx d).frame db k fun heq => ?_
    rw [Set.mem_singleton_iff.mp heq] at hk
    exact resultKey_notMem_detectionKeys _ hk
  have hsub := Engine.txKeys_subset rt tx
  exact view_congr (hframe (hsub (by simp))) (hframe (hsub (by simp))) (hframe (hsub (by simp)))

/-- The script of `Decide` replies from its view and takes it to the next one. -/
theorem runTxCheck_view (now : ℕ) (db : Db) :
    (Engine.runTxCheck rt cfg now tx db).1
        = (view (Engine.txKeys rt tx) db).reply rt (Engine.txArgs cfg tx) ∧
      view (Engine.txKeys rt tx) (Engine.runTxCheck rt cfg now tx db).2
        = (view (Engine.txKeys rt tx) db).next rt (Engine.txArgs cfg tx) := by
  refine txCheck_view now (Engine.txKeys_distinct rt tx) ?_
  -- the reference of the call is the one that would make it prescored, and that counts as a redelivery
  rcases (view (Engine.txKeys rt tx) db).ref with _ | s | j
  · simp [replayStatusOf]
  · by_cases hs : s = decisionRef tx.eventId <;> simp [replayStatusOf, replayVerdict, Engine.txArgs, hs]
  · simp [replayStatusOf, replayVerdict]

/-- A script call takes the view to the next one, every other step leaves it alone. -/
theorem RetryStep.view (hstamp : ∀ call, tx.stamped call = tx) (h : RetryStep rt cfg tx w a w') :
    (a = .decideScript ∧ view (Engine.txKeys rt tx) w'.db
        = (view (Engine.txKeys rt tx) w.db).next rt (Engine.txArgs cfg tx)) ∨
      (a ≠ .decideScript ∧ view (Engine.txKeys rt tx) w'.db = view (Engine.txKeys rt tx) w.db) := by
  cases h with
  | script i now call hi =>
      rw [hstamp]
      exact Or.inl ⟨rfl, (runTxCheck_view now w.db).2⟩
  | scriptLost i now call hi =>
      rw [hstamp]
      exact Or.inl ⟨rfl, (runTxCheck_view now w.db).2⟩
  | store i now call r hi =>
      rw [hstamp]
      exact Or.inr ⟨by simp, view_storeDecision now _ w.db⟩
  | storeLost i now call r hi =>
      rw [hstamp]
      exact Or.inr ⟨by simp, view_storeDecision now _ w.db⟩
  | elsewhere db h =>
      exact Or.inr ⟨by simp, view_congr (h _ (by simp [decideKeys])) (h _ (by simp [decideKeys]))
        (h _ (by simp [decideKeys]))⟩
  | lookup | refuse | cached | unanswered | fail => exact Or.inr ⟨by simp, rfl⟩

/-- The keys of the rules. -/
def enforcementKeys : Set String := keyFamilies [quarantineKeyPrefix, stepUpKeyPrefix, ipBlockKeyPrefix]

theorem enforcementKeys_disjoint : Disjoint enforcementKeys (keyFamilies [resultKeyPrefix]) :=
  keyFamilies_disjoint (by decide)

theorem enforcementKeys_disjoint_detectionKeys : Disjoint enforcementKeys detectionKeys :=
  keyFamilies_disjoint (by decide)

theorem activeRules_congr {db db' : Db}
    (h : ∀ k ∈ ({quarantineKey tx.userId, stepUpKey tx.userId, ipBlockKey tx.ipAddress} : Set String), db' k = db k) :
    Engine.activeRules db' tx = Engine.activeRules db tx := by
  unfold Engine.activeRules
  rw [h (quarantineKey tx.userId) (by simp), h (stepUpKey tx.userId) (by simp), h (ipBlockKey tx.ipAddress) (by simp)]

theorem ruleKeys_subset : ({quarantineKey tx.userId, stepUpKey tx.userId, ipBlockKey tx.ipAddress} : Set String)
    ⊆ enforcementKeys := by
  rintro k (rfl | rfl | rfl)
  · exact mem_keyFamilies (by simp) _
  · exact mem_keyFamilies (by simp) _
  · exact mem_keyFamilies (by simp) _

/-- The script leaves the rules alone. -/
theorem activeRules_runTxCheck (now : ℕ) (db : Db) :
    Engine.activeRules (Engine.runTxCheck rt cfg now tx db).2 tx = Engine.activeRules db tx := by
  refine activeRules_congr fun k hk => (footprint_txCheck _ _ _ _).frame _ _ fun h => ?_
  exact Set.disjoint_left.mp enforcementKeys_disjoint_detectionKeys (ruleKeys_subset hk) (Engine.txKeys_subset rt tx h)

/-- So does the write of a verdict. -/
theorem activeRules_storeDecision (now : ℕ) (d : Engine.Decision) (db : Db) :
    Engine.activeRules (Engine.storeDecision cfg now tx d db).2 tx = Engine.activeRules db tx := by
  refine activeRules_congr fun k hk => (Engine.footprint_storeDecision _ _ _ _).frame _ _ fun h => ?_
  rw [Set.mem_singleton_iff.mp h] at hk
  exact Set.disjoint_left.mp enforcementKeys_disjoint (ruleKeys_subset hk) (mem_keyFamilies (by simp) _)

/-- What every keyspace of a run has in common: no rule, the view of the start or the next one, and no stored
verdict with other reasons. -/
structure AgreedDb (rt : Runtime) (cfg : Engine.Config) (tx : Engine.Transaction) (v : View) (db : Db) : Prop where
  rules : Engine.refusal tx (Engine.activeRules db tx) = none
  seen : view (Engine.txKeys rt tx) db = v ∨ view (Engine.txKeys rt tx) db = v.next rt (Engine.txArgs cfg tx)
  result : payload (db (resultKey tx.eventId)) = none ∨ ∃ d : Engine.Decision,
    payload (db (resultKey tx.eventId)) = some (.json d.toJson) ∧
      Consistent cfg (Engine.interpret cfg tx (v.reply rt (Engine.txArgs cfg tx))) d

/-- Nor has a pending verdict other reasons. -/
structure Agreed (rt : Runtime) (cfg : Engine.Config) (tx : Engine.Transaction) (v : View) (w : World) : Prop where
  db : AgreedDb rt cfg tx v w.db
  tasks : ∀ i call r, w.tasks i = .retrying call r ∨ w.tasks i = .unsaved call r →
    Engine.interpret cfg tx r = Engine.interpret cfg tx (v.reply rt (Engine.txArgs cfg tx))

/-- What an answer says. -/
def Action.Answers (cfg : Engine.Config) (rs : List Engine.Reason) : Action → Prop
  | .report (.decision d) => Consistent cfg rs d
  | _ => True

theorem consistent_scored {call : Engine.Call} {r : TxReply} {rs : List Engine.Reason}
    (h : Engine.interpret cfg tx r = rs) : Consistent cfg rs (Engine.scored cfg call tx r) := by
  subst h
  exact ⟨rfl, rfl, rfl⟩

/-- Sending a task on keeps the invariant if its new state has the reasons. -/
theorem Agreed.goto {v : View} (h : Agreed rt cfg tx v w) {db : Db} (hdb : AgreedDb rt cfg tx v db) {i : ℕ}
    {p : Progress} (hp : ∀ call r, p = .retrying call r ∨ p = .unsaved call r →
      Engine.interpret cfg tx r = Engine.interpret cfg tx (v.reply rt (Engine.txArgs cfg tx))) :
    Agreed rt cfg tx v (w.goto db i p) where
  db := hdb
  tasks := World.tasks_goto (P := fun q => ∀ call r, q = .retrying call r ∨ q = .unsaved call r →
    Engine.interpret cfg tx r = Engine.interpret cfg tx (v.reply rt (Engine.txArgs cfg tx))) h.tasks db i hp

/-- A task that is done has no verdict pending. -/
theorem Agreed.finish {v : View} (h : Agreed rt cfg tx v w) {db : Db} (hdb : AgreedDb rt cfg tx v db) (i : ℕ) :
    Agreed rt cfg tx v (w.goto db i .done) :=
  h.goto hdb fun _ _ hp => by rcases hp with hp | hp <;> cases hp

/-- The write of a verdict with the reasons. -/
theorem AgreedDb.store {v : View} {db : Db} (h : AgreedDb rt cfg tx v db) (now : ℕ) (call : Engine.Call) {r : TxReply}
    (hr : Engine.interpret cfg tx r = Engine.interpret cfg tx (v.reply rt (Engine.txArgs cfg tx))) :
    AgreedDb rt cfg tx v (Engine.storeDecision cfg now tx (Engine.scored cfg call tx r) db).2 where
  rules := by
    rw [activeRules_storeDecision]
    exact h.rules
  seen := by
    rw [view_storeDecision]
    exact h.seen
  result := by
    cases hdoc : Engine.marshal (Engine.scored cfg call tx r) with
    | none =>
        simp only [Engine.storeDecision, hdoc]
        exact h.result
    | some doc =>
        obtain rfl := Engine.eq_toJson_of_marshal hdoc
        exact Or.inr ⟨_, Engine.storeDecision_marshal hdoc db, consistent_scored hr⟩

/-- A stored verdict that is read back has the reasons. -/
theorem AgreedDb.cached {v : View} {db : Db} (h : AgreedDb rt cfg tx v db) {d : Engine.Decision}
    (hd : (Engine.cachedDecision tx db).1 = some d) :
    Consistent cfg (Engine.interpret cfg tx (v.reply rt (Engine.txArgs cfg tx))) d := by
  rcases h.result with hnone | ⟨d', hdoc, hd'⟩
  · rw [Engine.cachedDecision_none hnone] at hd
    cases hd
  · rw [Engine.cachedDecision_json hdoc] at hd
    simp only [Engine.unmarshal_toJson, Option.map_some, Option.some.injEq] at hd
    subst hd
    exact ⟨hd'.reasons, hd'.score, hd'.verdict⟩

theorem AgreedDb.congr {v : View} {db db' : Db} (h : AgreedDb rt cfg tx v db)
    (hdb : ∀ k ∈ decideKeys rt tx, db' k = db k) : AgreedDb rt cfg tx v db' where
  rules := by
    rw [activeRules_congr fun k hk => hdb k (Set.mem_of_mem_of_subset hk (by simp [decideKeys, Set.insert_subset_iff]))]
    exact h.rules
  seen := by
    rw [view_congr (hdb _ (by simp [decideKeys])) (hdb _ (by simp [decideKeys])) (hdb _ (by simp [decideKeys]))]
    exact h.seen
  result := by
    rw [hdb _ (by simp [decideKeys])]
    exact h.result

variable (hstamp : ∀ call, tx.stamped call = tx) (hvel : 0 ≤ cfg.maxVelocityKmh)
  (hself : ∀ lat lon, haversineKm rt lat lon lat lon = 0)
include hstamp hvel hself

/-- The view after a run: as at the start before the first script, and the next one ever after. -/
theorem view_of_run {labels : List Action} (hrun : Run (RetryStep rt cfg tx) w labels w') :
    (.decideScript ∉ labels → view (Engine.txKeys rt tx) w'.db = view (Engine.txKeys rt tx) w.db) ∧
      (.decideScript ∈ labels → view (Engine.txKeys rt tx) w'.db
        = (view (Engine.txKeys rt tx) w.db).next rt (Engine.txArgs cfg tx)) := by
  refine hrun.history (I := fun labels w' =>
    (.decideScript ∉ labels → view (Engine.txKeys rt tx) w'.db = view (Engine.txKeys rt tx) w.db) ∧
      (.decideScript ∈ labels → view (Engine.txKeys rt tx) w'.db
        = (view (Engine.txKeys rt tx) w.db).next rt (Engine.txArgs cfg tx))) ⟨fun _ => rfl, by simp⟩ ?_
  rintro labels t a u ⟨hbefore, hafter⟩ hstep
  obtain ⟨rfl, hnext⟩ | ⟨hquiet, hsame⟩ := hstep.view hstamp
  · refine ⟨by simp, fun _ => ?_⟩
    by_cases hran : .decideScript ∈ labels
    · rw [hnext, hafter hran]
      exact View.next_next hvel hself _
    · rw [hnext, hbefore hran]
  · have hiff : .decideScript ∈ labels ++ [a] ↔ .decideScript ∈ labels := by
      simp [hquiet.symm]
    rw [hiff, hsame]
    exact ⟨hbefore, hafter⟩

omit hstamp in
/-- The script, whatever view it meets, replies with the reasons and leaves the next view. -/
theorem AgreedDb.script {v : View} {db : Db} (h : AgreedDb rt cfg tx v db) (now : ℕ) :
    Engine.interpret cfg tx (Engine.runTxCheck rt cfg now tx db).1
        = Engine.interpret cfg tx (v.reply rt (Engine.txArgs cfg tx)) ∧
      AgreedDb rt cfg tx v (Engine.runTxCheck rt cfg now tx db).2 := by
  have hreply : (Engine.runTxCheck rt cfg now tx db).1 = _ := (runTxCheck_view now db).1
  have hnext : view (Engine.txKeys rt tx) (Engine.runTxCheck rt cfg now tx db).2 = _ := (runTxCheck_view now db).2
  have hresult : (Engine.runTxCheck rt cfg now tx db).2 (resultKey tx.eventId) = db (resultKey tx.eventId) :=
    (footprint_txCheck _ _ _ _).frame _ _ fun hk => resultKey_notMem_detectionKeys _ (Engine.txKeys_subset rt tx hk)
  refine ⟨?_, ?_, Or.inr ?_, ?_⟩
  · rw [hreply]
    rcases h.seen with hv | hv
    · rw [hv]
    · rw [hv]
      exact interpret_next hvel hself cfg tx v
  · rw [activeRules_runTxCheck]
    exact h.rules
  · rw [hnext]
    rcases h.seen with hv | hv
    · rw [hv]
    · rw [hv]
      exact View.next_next hvel hself v
  · rw [hresult]
    exact h.result

/-- The step lemma: every step keeps the invariant, and an answer has the reasons. -/
theorem Agreed.step {v : View} (h : Agreed rt cfg tx v w) (hstep : RetryStep rt cfg tx w a w') :
    Agreed rt cfg tx v w' ∧ a.Answers cfg (Engine.interpret cfg tx (v.reply rt (Engine.txArgs cfg tx))) := by
  cases hstep with
  | lookup i call hi hids hrule =>
      refine ⟨h.goto h.db fun call' r hp => ?_, trivial⟩
      rcases hp with hp | hp <;> cases hp
  | refuse i call reason v hi hids hrule =>
      rw [hstamp, h.db.rules] at hrule
      cases hrule
  | script i now call hi =>
      rw [hstamp]
      obtain ⟨hreply, hdb⟩ := h.db.script hvel hself now
      refine ⟨h.goto hdb fun call' r hp => ?_, trivial⟩
      unfold afterScript at hp
      split at hp
      · rcases hp with hp | hp <;> cases hp
        exact hreply
      · rcases hp with hp | hp <;> cases hp
        exact hreply
  | scriptLost i now call hi =>
      rw [hstamp]
      exact ⟨h.finish (h.db.script hvel hself now).2 i, trivial⟩
  | cached i call r d hi hd =>
      rw [hstamp] at hd
      exact ⟨h.finish h.db i, h.db.cached hd⟩
  | unanswered i call r hi =>
      refine ⟨h.goto h.db fun call' r' hp => ?_, trivial⟩
      rcases hp with hp | hp <;> cases hp
      exact h.tasks i call r (Or.inl hi)
  | store i now call r hi =>
      rw [hstamp]
      have hr := h.tasks i call r (Or.inr hi)
      exact ⟨h.finish (h.db.store now call hr) i, consistent_scored hr⟩
  | storeLost i now call r hi =>
      rw [hstamp]
      exact ⟨h.finish (h.db.store now call (h.tasks i call r (Or.inr hi))) i, trivial⟩
  | fail i => exact ⟨h.finish h.db i, trivial⟩
  | elsewhere db hdb => exact ⟨⟨h.db.congr hdb, h.tasks⟩, trivial⟩

end

/-- However many calls of `Decide` for one transaction are interleaved, with each other and with writes to
other keys, and wherever they fail: all that answer agree on verdict, score and reasons, and the window and
the session after any number of scripts are those after the first. -/
theorem retries_agree {rt : Runtime} {cfg : Engine.Config} {tx : Engine.Transaction} {w w' : World}
    {labels : List Action} (hstamp : tx.timestamp.isZero = false)
    (hrule : Engine.refusal tx (Engine.activeRules w.db tx) = none) (hresult : w.db (resultKey tx.eventId) = none)
    (hidle : ∀ i, w.tasks i = .idle) (hvel : 0 ≤ cfg.maxVelocityKmh)
    (hself : ∀ lat lon, haversineKm rt lat lon lat lon = 0) (hrun : Run (RetryStep rt cfg tx) w labels w') :
    (∀ d d', .report (.decision d) ∈ labels → .report (.decision d') ∈ labels →
      d.verdict = d'.verdict ∧ d.score = d'.score ∧ d.reasons = d'.reasons) ∧
    ∀ now, .decideScript ∈ labels →
      members (w'.db (burstKey tx.userId))
          = members ((Engine.runTxCheck rt cfg now tx w.db).2 (burstKey tx.userId)) ∧
        fields (w'.db (sessionKey tx.userId))
          = fields ((Engine.runTxCheck rt cfg now tx w.db).2 (sessionKey tx.userId)) := by
  have hst : ∀ call, tx.stamped call = tx := by
    intro call
    rw [Engine.Transaction.stamped, hstamp]
    rfl
  have hstart : Agreed rt cfg tx (view (Engine.txKeys rt tx) w.db) w := by
    refine ⟨⟨hrule, Or.inl rfl, Or.inl (by rw [hresult]; rfl)⟩, fun i call r h => ?_⟩
    rw [hidle] at h
    rcases h with h | h <;> cases h
  constructor
  · obtain ⟨-, hanswers⟩ := hrun.invariant_labels hstart fun _ _ _ h hstep => h.step hst hvel hself hstep
    intro d d' hd hd'
    have h : Consistent cfg _ d := hanswers _ hd
    have h' : Consistent cfg _ d' := hanswers _ hd'
    exact ⟨h.verdict.trans h'.verdict.symm, h.score.trans h'.score.symm, h.reasons.trans h'.reasons.symm⟩
  · intro now hran
    have hview : view (Engine.txKeys rt tx) w'.db
        = view (Engine.txKeys rt tx) (Engine.runTxCheck rt cfg now tx w.db).2 :=
      ((view_of_run hst hvel hself hrun).2 hran).trans (runTxCheck_view now w.db).2.symm
    exact ⟨congrArg View.window hview, congrArg View.session hview⟩

/-! ## Whole calls are runs -/

section

variable {rt : Runtime} {cfg : Engine.Config} {tx : Engine.Transaction} {w : World}

/-- A call of `Decide` that nothing interrupts is a run of the machine. -/
theorem run_retry {i now : ℕ} {call : Engine.Call} {d : Engine.Decision} {db : Db} (hi : w.tasks i = .idle)
    (h : Engine.decide rt cfg now call tx w.db = (.ok d, db)) :
    ∃ labels w', Run (RetryStep rt cfg tx) w labels w' ∧ w'.db = db ∧ (∀ j ≠ i, w'.tasks j = w.tasks j) ∧
      Action.report (.decision d) ∈ labels := by
  have hgoto : ∀ {w' : World}, (∀ j ≠ i, w'.tasks j = w.tasks j) → ∀ db p, ∀ j ≠ i, (w'.goto db i p).tasks j = w.tasks j := by
    intro w' hw' db p j hj
    exact (Function.update_of_ne hj _ _).trans (hw' j hj)
  have hstay : ∀ j ≠ i, w.tasks j = w.tasks j := fun _ _ => rfl
  have hids : ¬ (tx.eventId = "" ∨ tx.userId = "") := by
    intro hids
    rw [Engine.decide_missingIds hids] at h
    cases h
  cases hrule : Engine.refusal (tx.stamped call) (Engine.activeRules w.db (tx.stamped call)) with
  | some r =>
      obtain ⟨reason, v⟩ := r
      rw [Engine.decide_refused hids hrule] at h
      cases h
      exact ⟨_, _, .single (.refuse i call reason v hi hids hrule), rfl, hgoto hstay _ _, by simp⟩
  | none =>
      set out := Engine.runTxCheck rt cfg now (tx.stamped call) w.db with hout
      have hlooked := hgoto hstay w.db (.looked call)
      have hscript : Run (RetryStep rt cfg tx) w [.quiet, .decideScript]
          ((w.goto w.db i (.looked call)).goto out.2 i (afterScript call out.1)) :=
        .cons (.lookup i call hi hids hrule) (.single (.script i now call (by simp)))
      by_cases hagain : out.1.replayStatus = .redelivery
      · rw [Engine.decide_redelivered hids hrule hagain, ← hout] at h
        rw [afterScript, if_pos hagain] at hscript
        have hretrying := hgoto hlooked out.2 (.retrying call out.1)
        cases hcached : (Engine.cachedDecision (tx.stamped call) out.2).1 with
        | some prev =>
            simp only [hcached] at h
            cases h
            exact ⟨_, _, hscript.snoc (.cached i call out.1 d (by simp) hcached), rfl, hgoto hretrying _ _, by simp⟩
        | none =>
            simp only [hcached] at h
            cases h
            exact ⟨_, _, (hscript.snoc (.unanswered i call out.1 (by simp))).snoc (.store i now call out.1 (by simp)),
              rfl, hgoto (hgoto hretrying _ _) _ _, by simp⟩
      · rw [Engine.decide_scored hids hrule hagain, ← hout] at h
        rw [afterScript, if_neg hagain] at hscript
        have hunsaved := hgoto hlooked out.2 (.unsaved call out.1)
        cases h
        exact ⟨_, _, hscript.snoc (.store i now call out.1 (by simp)), rfl, hgoto hunsaved _ _, by simp⟩

/-- A call with both ids answers when Redis does. -/
theorem exists_decision (hids : ¬ (tx.eventId = "" ∨ tx.userId = "")) (now : ℕ) (call : Engine.Call) (db : Db) :
    ∃ d, (Engine.decide rt cfg now call tx db).1 = .ok d := by
  cases hrule : Engine.refusal (tx.stamped call) (Engine.activeRules db (tx.stamped call)) with
  | some r =>
      obtain ⟨reason, v⟩ := r
      rw [Engine.decide_refused hids hrule]
      exact ⟨_, rfl⟩
  | none =>
      by_cases hagain : (Engine.runTxCheck rt cfg now (tx.stamped call) db).1.replayStatus = .redelivery
      · rw [Engine.decide_redelivered hids hrule hagain]
        dsimp only
        split
        · exact ⟨_, rfl⟩
        · exact ⟨_, rfl⟩
      · rw [Engine.decide_scored hids hrule hagain]
        exact ⟨_, rfl⟩

/-- The script keys of another user and another payload are other keys. -/
theorem decideKeys_ne_txKeys {tx' : Engine.Transaction} (huser : tx'.userId ≠ tx.userId)
    (hhash : tx'.replayHash rt ≠ tx.replayHash rt) {k : String} (hk : k ∈ decideKeys rt tx) :
    k ∉ ({(Engine.txKeys rt tx').replay, (Engine.txKeys rt tx').burst, (Engine.txKeys rt tx').session} : Set String) := by
  rcases hk with rfl | rfl | rfl | rfl | hk
  · rintro (h | h | h)
    · exact hhash (replayKey_injective h).symm
    · exact append_ne_of_incomparable (p := replayKeyPrefix) (q := burstKeyPrefix) (by decide) _ _ h
    · exact append_ne_of_incomparable (p := replayKeyPrefix) (q := sessionKeyPrefix) (by decide) _ _ h
  · rintro (h | h | h)
    · exact append_ne_of_incomparable (p := burstKeyPrefix) (q := replayKeyPrefix) (by decide) _ _ h
    · exact huser (burstKey_injective h).symm
    · exact append_ne_of_incomparable (p := burstKeyPrefix) (q := sessionKeyPrefix) (by decide) _ _ h
  · rintro (h | h | h)
    · exact append_ne_of_incomparable (p := sessionKeyPrefix) (q := replayKeyPrefix) (by decide) _ _ h
    · exact append_ne_of_incomparable (p := sessionKeyPrefix) (q := burstKeyPrefix) (by decide) _ _ h
    · exact huser (sessionKey_injective h).symm
  · exact fun h => resultKey_notMem_detectionKeys _ (Engine.txKeys_subset rt tx' h)
  · exact fun h => Set.disjoint_left.mp enforcementKeys_disjoint_detectionKeys (ruleKeys_subset hk)
      (Engine.txKeys_subset rt tx' h)

/-- A call of `Decide` for another user, event and payload only writes elsewhere, script and store alike. -/
theorem elsewhere_decide (cfg' : Engine.Config) (now : ℕ) {tx' : Engine.Transaction}
    (huser : tx'.userId ≠ tx.userId) (hevent : tx'.eventId ≠ tx.eventId)
    (hhash : tx'.replayHash rt ≠ tx.replayHash rt) (d : Engine.Decision) :
    RetryStep rt cfg tx w .quiet ⟨(Engine.runTxCheck rt cfg' now tx' w.db).2, w.tasks⟩ ∧
      RetryStep rt cfg tx w .quiet ⟨(Engine.storeDecision cfg' now tx' d w.db).2, w.tasks⟩ := by
  refine ⟨.elsewhere _ fun k hk => ?_, .elsewhere _ fun k hk => ?_⟩
  · exact (footprint_txCheck _ _ _ _).frame _ _ (decideKeys_ne_txKeys huser hhash hk)
  · refine (Engine.footprint_storeDecision cfg' now tx' d).frame _ _ fun h => ?_
    rw [Set.mem_singleton_iff.mp h] at hk
    have hdetection : ∀ {k : String}, k ∈ detectionKeys → resultKey tx'.eventId ≠ k := by
      rintro _ hk rfl
      exact resultKey_notMem_detectionKeys _ hk
    have hsub := Engine.txKeys_subset rt tx
    rcases hk with hk | hk | hk | hk | hk
    · exact hdetection (hsub (by simp)) hk
    · exact hdetection (hsub (by simp)) hk
    · exact hdetection (hsub (by simp)) hk
    · exact hevent (resultKey_injective hk)
    · exact Set.disjoint_left.mp enforcementKeys_disjoint (ruleKeys_subset hk) (mem_keyFamilies (by simp) _)

end

/-- A call and its retry agree. -/
theorem retries_agree_retry :
    let first := Engine.decide Sample.runtime {} 0 Sample.call (Sample.transaction "e1") fun _ => none
    let second := Engine.decide Sample.runtime {} 1000 Sample.call (Sample.transaction "e1") first.2
    ∃ d d', first.1 = .ok d ∧ second.1 = .ok d' ∧ d.verdict = d'.verdict ∧ d.score = d'.score ∧
      d.reasons = d'.reasons := by
  intro first second
  have hids : ¬ ((Sample.transaction "e1").eventId = "" ∨ (Sample.transaction "e1").userId = "") := by decide
  obtain ⟨d, hd⟩ : ∃ d, first.1 = .ok d := exists_decision hids 0 Sample.call fun _ => none
  obtain ⟨d', hd'⟩ : ∃ d, second.1 = .ok d := exists_decision hids 1000 Sample.call first.2
  refine ⟨d, d', hd, hd', ?_⟩
  obtain ⟨labels, w, hrun, hdb, htasks, hmem⟩ := run_retry (w := Sample.fresh) (i := 0) rfl
    (show Engine.decide Sample.runtime {} 0 Sample.call (Sample.transaction "e1") (fun _ => none) = (.ok d, first.2) from
      Prod.ext hd rfl)
  obtain ⟨labels', w', hrun', -, -, hmem'⟩ := run_retry (w := w) (i := 1) (htasks 1 (by decide))
    (show Engine.decide Sample.runtime {} 1000 Sample.call (Sample.transaction "e1") w.db = (.ok d', second.2) from
      Prod.ext (by rw [hdb]; exact hd') (by rw [hdb]))
  refine (retries_agree (w := Sample.fresh) (by decide +kernel) (by decide) rfl (fun _ => rfl) (by norm_num) ?_
    (hrun.append hrun')).1 d d' (List.mem_append_left _ hmem) (List.mem_append_right _ hmem')
  intro lat lon
  simp [haversineKm, Sample.runtime]

end Rtace
