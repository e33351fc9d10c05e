import Rtace.Decision.LostResult

/-!
# One event in both services

An event goes through one Kafka record, delivered any number of times, and through any number of calls of
`Decide`, all interleaved command by command, while rules come and go. The machine below has one task for
each call or delivery; a task advances by one Redis round trip.
-/

namespace Rtace

open Lib Redis

/-- An event: the transaction as the decision service gets it, and its Kafka record. -/
structure Setting where
  rt : Runtime
  kafka : KafkaConfig
  cfg : RedisConfig
  gcfg : Engine.Config
  transaction : Engine.Transaction
  record : TxRecord rt kafka

namespace Setting

def key (E : Setting) : String := replayKey (E.record.tx.replayHash E.rt)

def result (E : Setting) : String := resultKey E.record.tx.eventId

theorem txKeys_replay (E : Setting) : (txKeys E.rt E.record.tx).replay = E.key := rfl

end Setting

/-- Where a call of `Decide` or a delivery of the record stands. -/
inductive Progress where
  | idle
  /-- `Decide`: no rule refused the call. -/
  | looked (call : Engine.Call)
  /-- `Decide`: the script answered `redelivery`; the stored verdict is not read yet. -/
  | retrying (call : Engine.Call) (r : TxReply)
  /-- `Decide`: scored, the result not written yet. -/
  | unsaved (call : Engine.Call) (r : TxReply)
  /-- Detection engine: the user is not quarantined. -/
  | admitted
  /-- Detection engine: the script answered `prescored`; the stored decision is not read yet. -/
  | prescored
  | done

/-- The keyspace and the tasks. -/
structure World where
  db : Db
  tasks : ℕ → Progress

/-- The keyspace becomes `db` and task `i` goes to `p`. -/
def World.goto (w : World) (db : Db) (i : ℕ) (p : Progress) : World := ⟨db, Function.update w.tasks i p⟩

/-- What holds of every task still holds when one of them goes to a state of which it holds. -/
theorem World.tasks_goto {w : World} {P : Progress → Prop} (hw : ∀ j, P (w.tasks j)) (db : Db) (i : ℕ) {p : Progress}
    (hp : P p) (j : ℕ) : P ((w.goto db i p).tasks j) :=
  (Function.forall_update_iff w.tasks fun _ => P).mpr ⟨hp, fun j _ => hw j⟩ j

/-- What a service answers. -/
inductive Report where
  | decision (d : Engine.Decision)
  | candidates (ds : List DetectionEvent)

/-- Labels: an answer, a script call of `Decide`, or any other step. -/
inductive Action where
  | report (r : Report)
  | decideScript
  | quiet

/-- Where `Decide` goes after its script. -/
def afterScript (call : Engine.Call) (r : TxReply) : Progress :=
  if r.replayStatus = .redelivery then .retrying call r else .unsaved call r

/-- One step. The rules may change at any time, also between the commands of one lookup, so a lookup may
see any combination of them. -/
inductive FlowStep (E : Setting) (w : World) : Action → World → Prop
  | lookup (i : ℕ) (call : Engine.Call) (rules : Engine.ActiveRules)
      (hsame : SameEvent E.rt call E.transaction E.record.tx) (hi : w.tasks i = .idle)
      (hrule : Engine.refusal (E.transaction.stamped call) rules = none) :
      FlowStep E w .quiet (w.goto w.db i (.looked call))
  | refuse (i : ℕ) (call : Engine.Call) (rules : Engine.ActiveRules) (reason : Engine.Reason)
      (v : Engine.Verdict) (hi : w.tasks i = .idle)
      (hrule : Engine.refusal (E.transaction.stamped call) rules = some (reason, v)) :
      FlowStep E w (.report (.decision (Engine.newDecision call [reason] reason.score v)))
        (w.goto w.db i .done)
  | script (i now : ℕ) (call : Engine.Call) (hsame : SameEvent E.rt call E.transaction E.record.tx)
      (hi : w.tasks i = .looked call) :
      FlowStep E w .decideScript
        (w.goto (Engine.runTxCheck E.rt E.gcfg now (E.transaction.stamped call) w.db).2 i
          (afterScript call (Engine.runTxCheck E.rt E.gcfg now (E.transaction.stamped call) w.db).1))
  | cached (i : ℕ) (call : Engine.Call) (r : TxReply) (d : Engine.Decision)
      (hsame : SameEvent E.rt call E.transaction E.record.tx) (hi : w.tasks i = .retrying call r)
      (hd : (Engine.cachedDecision (E.transaction.stamped call) w.db).1 = some d) :
      FlowStep E w (.report (.decision d)) (w.goto w.db i .done)
  | missed (i : ℕ) (call : Engine.Call) (r : TxReply) (hi : w.tasks i = .retrying call r)
      (hd : (Engine.cachedDecision (E.transaction.stamped call) w.db).1 = none) :
      FlowStep E w .quiet (w.goto w.db i (.unsaved call r))
  | store (i now : ℕ) (call : Engine.Call) (r : TxReply)
      (hsame : SameEvent E.rt call E.transaction E.record.tx) (hi : w.tasks i = .unsaved call r) :
      FlowStep E w (.report (.decision (Engine.scored E.gcfg call (E.transaction.stamped call) r)))
        (w.goto (Engine.storeDecision E.gcfg now (E.transaction.stamped call)
          (Engine.scored E.gcfg call (E.transaction.stamped call) r) w.db).2 i .done)
  /-- The write took effect, its reply was lost. -/
  | storeLost (i now : ℕ) (call : Engine.Call) (r : TxReply)
      (hsame : SameEvent E.rt call E.transaction E.record.tx) (hi : w.tasks i = .unsaved call r) :
      FlowStep E w .quiet
        (w.goto (Engine.storeDecision E.gcfg now (E.transaction.stamped call)
          (Engine.scored E.gcfg call (E.transaction.stamped call) r) w.db).2 i .done)
  /-- A task fails or its process dies. -/
  | fail (i : ℕ) : FlowStep E w .quiet (w.goto w.db i .done)
  | enter (i : ℕ) (hi : w.tasks i = .idle) : FlowStep E w .quiet (w.goto w.db i .admitted)
  | block (i : ℕ) (hi : w.tasks i = .idle) :
      FlowStep E w (.report (.candidates [])) (w.goto w.db i .done)
  | check (i now : ℕ) (ts : ℚ) (hi : w.tasks i = .admitted)
      (hts : E.record.tx.timestamp.timestamp E.rt = .ok ts)
      (hstatus : (txCheck E.rt now (txKeys E.rt E.record.tx) (txArgs E.cfg E.record.tx E.record.ref ts)
        w.db).1.replayStatus ≠ .prescored) :
      FlowStep E w
        (.report (.candidates ((findings E.cfg E.record.tx (txCheck E.rt now (txKeys E.rt E.record.tx)
          (txArgs E.cfg E.record.tx E.record.ref ts) w.db).1).map (assignStableId E.rt E.record.ref))))
        (w.goto (txCheck E.rt now (txKeys E.rt E.record.tx) (txArgs E.cfg E.record.tx E.record.ref ts)
          w.db).2 i .done)
  | checkPrescored (i now : ℕ) (ts : ℚ) (hi : w.tasks i = .admitted)
      (hts : E.record.tx.timestamp.timestamp E.rt = .ok ts)
      (hstatus : (txCheck E.rt now (txKeys E.rt E.record.tx) (txArgs E.cfg E.record.tx E.record.ref ts)
        w.db).1.replayStatus = .prescored) :
      FlowStep E w .quiet
        (w.goto (txCheck E.rt now (txKeys E.rt E.record.tx) (txArgs E.cfg E.record.tx E.record.ref ts)
          w.db).2 i .prescored)
  | fetch (i : ℕ) (hi : w.tasks i = .prescored) :
      FlowStep E w
        (.report (.candidates (((detectionsFromDecision E.record.tx (payload (w.db E.result))).toOption.getD
          []).map (assignStableId E.rt E.record.ref))))
        (w.goto w.db i .done)
  /-- Rules, other events and expiry: no other event has this replay key or this event id. -/
  | other (db : Db) (hkey : storedRef db E.key = storedRef w.db E.key ∨ storedRef db E.key = none)
      (hresult : payload (db E.result) = payload (w.db E.result) ∨ payload (db E.result) = none) :
      FlowStep E w .quiet ⟨db, w.tasks⟩

/-- No answer is a replay. -/
def Report.NoReplay : Report → Prop
  | .decision d => ∀ r ∈ d.reasons, r.type ≠ "replay_attack"
  | .candidates ds => ∀ d ∈ ds, d.detectionType ≠ "replay_attack"

def Action.NoReplay : Action → Prop
  | .report r => r.NoReplay
  | _ => True

/-- The replay key has not been claimed by the Kafka record. -/
def Unclaimed (E : Setting) (db : Db) : Prop :=
  storedRef db E.key = none ∨ storedRef db E.key = some (.text (decisionRef E.record.tx.eventId))

/-- Steps in which every script call of `Decide` comes before the Kafka record claims the replay key. -/
def TimelyStep (E : Setting) (w : World) (a : Action) (w' : World) : Prop :=
  FlowStep E w a w' ∧ (a = .decideScript → Unclaimed E w.db)

/-! ## The invariant -/

/-- Only the event's own references are stored, and no stored or pending verdict is a replay. -/
structure Clean (E : Setting) (w : World) : Prop where
  key : Unclaimed E w.db ∨ storedRef w.db E.key = some (.text E.record.ref)
  result : payload (w.db E.result) = none ∨
    ∃ d : Engine.Decision, payload (w.db E.result) = some (.json d.toJson) ∧ (Report.decision d).NoReplay
  tasks : ∀ i call r, w.tasks i = .retrying call r ∨ w.tasks i = .unsaved call r →
    r.replayStatus ≠ .replay

/-- A reply that is no replay gives no replay reason. -/
theorem interpret_noReplay {cfg : Engine.Config} {tx : Engine.Transaction} {r : TxReply}
    (h : r.replayStatus ≠ .replay) : ∀ x ∈ Engine.interpret cfg tx r, x.type ≠ "replay_attack" := by
  intro x hx
  simp only [Engine.interpret, if_neg h, List.nil_append, List.mem_append, List.mem_ite_nil_right,
    List.mem_singleton] at hx
  rcases hx with ⟨-, rfl⟩ | ⟨-, rfl⟩
  · simp
  · simp

/-- A reply that is no replay gives no replay finding. -/
theorem findings_noReplay {cfg : RedisConfig} {tx : TransactionEvent} {r : TxReply}
    (h : r.replayStatus ≠ .replay) : ∀ d ∈ findings cfg tx r, d.detectionType ≠ "replay_attack" := by
  intro d hd
  have htype : d.detectionType ∈ (findings cfg tx r).map (·.detectionType) := List.mem_map_of_mem hd
  rw [findings_types] at htype
  simp only [if_neg h, List.nil_append, List.mem_append, List.mem_ite_nil_right, List.mem_singleton] at htype
  rcases htype with ⟨-, htype⟩ | ⟨-, htype⟩
  · rw [htype]
    decide
  · rw [htype]
    decide

/-- A rule's refusal is no replay. -/
theorem refusal_noReplay {tx : Engine.Transaction} {rules : Engine.ActiveRules} {reason : Engine.Reason}
    {v : Engine.Verdict} (h : Engine.refusal tx rules = some (reason, v)) : reason.type ≠ "replay_attack" := by
  unfold Engine.refusal at h
  split at h
  · cases h
    simp
  split at h
  · cases h
    simp
  split at h
  · cases h
    simp
  · cases h

section

variable {E : Setting} {w : World}

/-- Sending a task on keeps the invariant if the keyspace and the new state of the task keep it. -/
theorem Clean.goto (hw : Clean E w) {db : Db} {i : ℕ} {p : Progress}
    (hkey : Unclaimed E db ∨ storedRef db E.key = some (.text E.record.ref))
    (hresult : payload (db E.result) = none ∨
      ∃ d : Engine.Decision, payload (db E.result) = some (.json d.toJson) ∧ (Report.decision d).NoReplay)
    (hp : ∀ call r, p = .retrying call r ∨ p = .unsaved call r → r.replayStatus ≠ .replay) :
    Clean E (w.goto db i p) where
  key := hkey
  result := hresult
  tasks := World.tasks_goto (P := fun q => ∀ call r, q = .retrying call r ∨ q = .unsaved call r →
    r.replayStatus ≠ .replay) hw.tasks db i hp

/-- A task that only reads keeps the invariant. -/
theorem Clean.goto_self (hw : Clean E w) {i : ℕ} {p : Progress}
    (hp : ∀ call r, p = .retrying call r ∨ p = .unsaved call r → r.replayStatus ≠ .replay) :
    Clean E (w.goto w.db i p) :=
  hw.goto hw.key hw.result hp

/-- A script of this event leaves its result key alone. -/
theorem txCheck_result {now : ℕ} {keys : TxKeys} {a : TxArgs} {db : Db}
    (hkeys : ({keys.replay, keys.burst, keys.session} : Set String) ⊆ detectionKeys) :
    (txCheck E.rt now keys a db).2 E.result = db E.result :=
  (footprint_txCheck _ _ _ _).frame _ _ fun h => resultKey_notMem_detectionKeys _ (hkeys h)

/-- The script of `Decide`, run before the Kafka record claims the key. -/
theorem Clean.script (hw : Clean E w) {i now : ℕ} {call : Engine.Call}
    (hsame : SameEvent E.rt call E.transaction E.record.tx) (hfree : Unclaimed E w.db) :
    Clean E (w.goto (Engine.runTxCheck E.rt E.gcfg now (E.transaction.stamped call) w.db).2 i
      (afterScript call (Engine.runTxCheck E.rt E.gcfg now (E.transaction.stamped call) w.db).1)) := by
  have hstored := storedRef_txCheck E.rt now (Engine.txArgs E.gcfg (E.transaction.stamped call)) w.db
    (Engine.txKeys_distinct E.rt (E.transaction.stamped call))
  rw [hsame.replay_key, hsame.recordRef] at hstored
  have hstatus : (Engine.runTxCheck E.rt E.gcfg now (E.transaction.stamped call) w.db).1.replayStatus
      ≠ .replay := by
    rw [Engine.runTxCheck, txCheck_replayStatus (Engine.txKeys_distinct _ _), hsame.replay_key]
    rcases hfree with h | h
    · simp only [Setting.key] at h
      simp [h, replayStatusOf]
    · simp only [Setting.key] at h
      rw [h, replayStatusOf, Engine.txArgs, hsame.stamped_eventId]
      exact replayVerdict_own _ _
  refine hw.goto (Or.inl (Or.inr ?_)) ?_ ?_
  · refine hstored.trans ?_
    rcases hfree with h | h
    · simp only [Setting.key] at h
      rw [h, Option.getD_none]
    · simp only [Setting.key] at h
      rw [h, Option.getD_some]
  · rw [Engine.runTxCheck, txCheck_result (Engine.txKeys_subset _ _)]
    exact hw.result
  · intro call' r hr
    unfold afterScript at hr
    split at hr
    · rcases hr with hr | hr <;> cases hr
      exact hstatus
    · rcases hr with hr | hr <;> cases hr
      exact hstatus

/-- The write of a verdict that is no replay. -/
theorem Clean.store (hw : Clean E w) {i now : ℕ} {call : Engine.Call} {r : TxReply}
    (hsame : SameEvent E.rt call E.transaction E.record.tx) (hr : r.replayStatus ≠ .replay) :
    Clean E (w.goto (Engine.storeDecision E.gcfg now (E.transaction.stamped call)
      (Engine.scored E.gcfg call (E.transaction.stamped call) r) w.db).2 i .done) := by
  have hreplay : (Engine.storeDecision E.gcfg now (E.transaction.stamped call)
      (Engine.scored E.gcfg call (E.transaction.stamped call) r) w.db).2 E.key = w.db E.key :=
    (Engine.footprint_storeDecision _ _ _ _).frame _ _ (replayKey_ne_resultKey _ _)
  refine hw.goto ?_ ?_ (by simp)
  · unfold Unclaimed storedRef
    rw [hreplay]
    exact hw.key
  · cases hdoc : Engine.marshal (Engine.scored E.gcfg call (E.transaction.stamped call) r) with
    | none =>
        simp only [Engine.storeDecision, hdoc]
        exact hw.result
    | some doc =>
        obtain rfl := Engine.eq_toJson_of_marshal hdoc
        refine Or.inr ⟨Engine.scored E.gcfg call (E.transaction.stamped call) r, ?_, interpret_noReplay hr⟩
        rw [Setting.result, ← hsame.stamped_eventId]
        exact Engine.storeDecision_marshal hdoc w.db

/-- The script of the detection engine. -/
theorem Clean.check (hw : Clean E w) {i now : ℕ} {ts : ℚ} {p : Progress}
    (hp : ∀ call r, p = .retrying call r ∨ p = .unsaved call r → r.replayStatus ≠ .replay) :
    Clean E (w.goto (txCheck E.rt now (txKeys E.rt E.record.tx)
      (txArgs E.cfg E.record.tx E.record.ref ts) w.db).2 i p) := by
  have hstored := storedRef_txCheck E.rt now (txArgs E.cfg E.record.tx E.record.ref ts) w.db
    (txKeys_distinct E.rt E.record.tx)
  rw [E.txKeys_replay] at hstored
  refine hw.goto ?_ ?_ hp
  · rcases hw.key with (h | h) | h
    · rw [h, Option.getD_none] at hstored
      exact Or.inr hstored
    · rw [h, Option.getD_some] at hstored
      exact Or.inl (Or.inr hstored)
    · rw [h, Option.getD_some] at hstored
      exact Or.inr hstored
  · rw [txCheck_result (txKeys_subset _ _)]
    exact hw.result

/-- The detection engine never meets a foreign reference. -/
theorem Clean.check_status (hw : Clean E w) {now : ℕ} {ts : ℚ} :
    (txCheck E.rt now (txKeys E.rt E.record.tx) (txArgs E.cfg E.record.tx E.record.ref ts)
      w.db).1.replayStatus ≠ .replay := by
  rw [txCheck_replayStatus (txKeys_distinct _ _), E.txKeys_replay]
  rcases hw.key with (h | h) | h
  · rw [h]
    simp [replayStatusOf]
  · rw [h]
    exact replayVerdict_own _ _
  · rw [h]
    simp [replayStatusOf, replayVerdict, txArgs]

/-- The step lemma: a timely step keeps the invariant and reports no replay. -/
theorem Clean.step (hw : Clean E w) {a : Action} {w' : World} (h : TimelyStep E w a w') :
    Clean E w' ∧ a.NoReplay := by
  obtain ⟨hstep, htimely⟩ := h
  cases hstep with
  | lookup i call rules hsame hi hrule => exact ⟨hw.goto_self (by simp), trivial⟩
  | refuse i call rules reason v hi hrule =>
      refine ⟨hw.goto_self (by simp), fun x hx => ?_⟩
      obtain rfl := List.mem_singleton.mp hx
      exact refusal_noReplay hrule
  | script i now call hsame hi => exact ⟨hw.script hsame (htimely rfl), trivial⟩
  | cached i call r d hsame hi hd =>
      refine ⟨hw.goto_self (by simp), ?_⟩
      -- the stored verdict is the one an earlier call wrote
      have hkey : resultKey (E.transaction.stamped call).eventId = E.result := by
        rw [hsame.stamped_eventId, Setting.result]
      rcases hw.result with hnone | ⟨d', hdoc, hd'⟩
      · rw [Engine.cachedDecision_none (by rw [hkey, hnone])] at hd
        cases hd
      · rw [Engine.cachedDecision_json (by rw [hkey, hdoc])] at hd
        simp only [Engine.unmarshal_toJson, Option.map_some, Option.some.injEq] at hd
        subst hd
        exact hd'
  | missed i call r hi hd =>
      refine ⟨hw.goto_self fun call' r' h => ?_, trivial⟩
      rcases h with h | h <;> cases h
      exact hw.tasks i call r (Or.inl hi)
  | store i now call r hsame hi =>
      have hr := hw.tasks i call r (Or.inr hi)
      exact ⟨hw.store hsame hr, interpret_noReplay hr⟩
  | storeLost i now call r hsame hi =>
      exact ⟨hw.store hsame (hw.tasks i call r (Or.inr hi)), trivial⟩
  | fail i => exact ⟨hw.goto_self (by simp), trivial⟩
  | enter i hi => exact ⟨hw.goto_self (by simp), trivial⟩
  | block i hi => exact ⟨hw.goto_self (by simp), by simp [Action.NoReplay, Report.NoReplay]⟩
  | check i now ts hi hts hstatus =>
      refine ⟨hw.check (by simp), fun d hd => ?_⟩
      obtain ⟨d', hd', rfl⟩ := List.mem_map.mp hd
      exact findings_noReplay hw.check_status d' hd'
  | checkPrescored i now ts hi hts hstatus => exact ⟨hw.check (by simp), trivial⟩
  | fetch i hi =>
      refine ⟨hw.goto_self (by simp), fun d hd => ?_⟩
      obtain ⟨d', hd', rfl⟩ := List.mem_map.mp hd
      rcases hw.result with hnone | ⟨dec, hdoc, hdec⟩
      · rw [hnone] at hd'
        cases hd'
      · rw [hdoc, Engine.detectionsFromDecision_toJson] at hd'
        obtain ⟨x, hx, rfl⟩ := List.mem_map.mp hd'
        exact hdec x (List.mem_filter.mp hx).1
  | other db hkey hresult =>
      refine ⟨⟨?_, ?_, hw.tasks⟩, trivial⟩
      · rcases hkey with hkey | hkey
        · unfold Unclaimed
          rw [hkey]
          exact hw.key
        · exact Or.inl (Or.inl hkey)
      · rcases hresult with hresult | hresult
        · rw [hresult]
          exact hw.result
        · exact Or.inl hresult

/-- From a fresh event on, as long as every script call of `Decide` comes before the Kafka record has
claimed the replay key, neither service ever reports the event as a replay. -/
theorem no_selfReplay {labels : List Action} {w' : World} (hkey : storedRef w.db E.key = none)
    (hresult : payload (w.db E.result) = none) (htasks : ∀ i, w.tasks i = .idle)
    (hrun : Run (TimelyStep E) w labels w') : ∀ a ∈ labels, a.NoReplay := by
  have hclean : Clean E w := ⟨Or.inl (Or.inl hkey), Or.inl hresult, fun i call r h => by simp [htasks] at h⟩
  exact (hrun.invariant_labels hclean fun _ _ _ hI hstep => hI.step hstep).2

/-! ## Uninterrupted calls are runs -/

@[simp] theorem World.goto_db (w : World) (db : Db) (i : ℕ) (p : Progress) : (w.goto db i p).db = db := rfl

@[simp] theorem World.goto_tasks_self (w : World) (db : Db) (i : ℕ) (p : Progress) :
    (w.goto db i p).tasks i = p :=
  Function.update_self ..

/-- A call of `Decide` that nothing interrupts is a run of the machine. -/
theorem run_decide {i now : ℕ} {call : Engine.Call} {d : Engine.Decision} {db : Db}
    (hsame : SameEvent E.rt call E.transaction E.record.tx) (hi : w.tasks i = .idle)
    (h : Engine.decide E.rt E.gcfg now call E.transaction w.db = (.ok d, db)) :
    ∃ labels w', Run (FlowStep E) w labels w' ∧ w'.db = db ∧ Action.report (.decision d) ∈ labels := by
  have hids : ¬ (E.transaction.eventId = "" ∨ E.transaction.userId = "") := by
    intro hids
    rw [Engine.decide_missingIds hids] at h
    cases h
  cases hrule : Engine.refusal (E.transaction.stamped call)
      (Engine.activeRules w.db (E.transaction.stamped call)) with
  | some r =>
      obtain ⟨reason, v⟩ := r
      rw [Engine.decide_refused hids hrule] at h
      cases h
      exact ⟨_, _, .single (.refuse i call _ reason v hi hrule), rfl, by simp⟩
  | none =>
      set out := Engine.runTxCheck E.rt E.gcfg now (E.transaction.stamped call) w.db with hout
      have hscript : Run (FlowStep E) w [.quiet, .decideScript]
          ((w.goto w.db i (.looked call)).goto out.2 i (afterScript call out.1)) :=
        .cons (.lookup i call _ hsame hi hrule) (.single (.script i now call hsame (by simp)))
      by_cases hagain : out.1.replayStatus = .redelivery
      · rw [Engine.decide_redelivered hids hrule hagain, ← hout] at h
        rw [afterScript, if_pos hagain] at hscript
        cases hcached : (Engine.cachedDecision (E.transaction.stamped call) out.2).1 with
        | some prev =>
            simp only [hcached] at h
            cases h
            exact ⟨_, _, hscript.snoc (.cached i call out.1 d hsame (by simp) hcached), rfl, by simp⟩
        | none =>
            simp only [hcached] at h
            cases h
            exact ⟨_, _, (hscript.snoc (.missed i call out.1 (by simp) hcached)).snoc
              (.store i now call out.1 hsame (by simp)), rfl, by simp⟩
      · rw [Engine.decide_scored hids hrule hagain, ← hout] at h
        rw [afterScript, if_neg hagain] at hscript
        cases h
        exact ⟨_, _, hscript.snoc (.store i now call out.1 hsame (by simp)), rfl, by simp⟩

/-- Handling the record without interruption is a run of the machine; the cooldown is another client's
business. -/
theorem run_handleBatch {i now : ℕ} {ts : ℚ} {cands : List DetectionEvent} (hi : w.tasks i = .idle)
    (hts : E.record.tx.timestamp.timestamp E.rt = .ok ts)
    (h : recordCandidates E.rt E.kafka E.cfg now E.record.record w.db = .ok cands) :
    ∃ labels w', Run (FlowStep E) w labels w' ∧
      w'.db = (handleBatch E.rt E.kafka E.cfg now [E.record.record] w.db).2 ∧
      Action.report (.candidates cands) ∈ labels := by
  have hother : ∀ {labels : List Action} {w' : World}, Run (FlowStep E) w labels w' →
      w'.db = (scanTx E.rt E.cfg now E.record.tx E.record.ref w.db).2 →
      Run (FlowStep E) w (labels ++ [.quiet])
        ⟨(handleBatch E.rt E.kafka E.cfg now [E.record.record] w.db).2, w'.tasks⟩ := by
    intro labels w' hrun hdb
    refine hrun.snoc (.other _ (Or.inl ?_) (Or.inl ?_))
    · rw [storedRef, storedRef, hdb, Setting.key,
        handleBatch_tx_frame _ _ _ _ (replayKey_notMem_cooldownKeys _)]
    · rw [hdb, Setting.result, handleBatch_tx_frame _ _ _ _ (resultKey_notMem_cooldownKeys _)]
  rw [recordCandidates_tx] at h
  cases hq : w.db (quarantineKey E.record.tx.userId) with
  | some e =>
      have hscan : scanTx E.rt E.cfg now E.record.tx E.record.ref w.db = (.ok [], w.db) := by
        simp only [scanTx, hq, Option.isSome_some, if_true]
      rw [hscan] at h
      cases h
      exact ⟨_, _, hother (.single (.block i hi)) (by rw [hscan]; rfl), rfl, by simp⟩
  | none =>
      have hscan := scanTx_free E.cfg now E.record.ref hts hq
      set out := txCheck E.rt now (txKeys E.rt E.record.tx) (txArgs E.cfg E.record.tx E.record.ref ts) w.db
      have henter : Run (FlowStep E) w [.quiet] (w.goto w.db i .admitted) := .single (.enter i hi)
      by_cases hpre : out.1.replayStatus = .prescored
      · rw [hscan] at h
        simp only [if_pos hpre] at h
        cases hfound : detectionsFromDecision E.record.tx (payload (out.2 (resultKey E.record.tx.eventId))) with
        | error e =>
            rw [hfound] at h
            cases h
        | ok found =>
            rw [hfound] at h
            cases h
            have hfetch := FlowStep.fetch (E := E)
              (w := (w.goto w.db i .admitted).goto out.2 i .prescored) i (by simp)
            simp only [World.goto_db, Setting.result, hfound, toOption_ok, Option.getD_some] at hfetch
            exact ⟨_, _, hother ((henter.snoc (.checkPrescored i now ts (by simp) hts hpre)).snoc hfetch)
              (by rw [hscan]; rfl), rfl, by simp⟩
      · rw [hscan] at h
        simp only [if_neg hpre] at h
        cases h
        refine ⟨_, _, hother (henter.snoc (.check i now ts (by simp) hts hpre)) (by rw [hscan]; rfl), rfl, ?_⟩
        simp [out]

/-- Once the Kafka record has claimed the replay key, a call of `Decide` reports a replay. -/
theorem exists_selfReplay {i : ℕ} {call : Engine.Call} (rules : Engine.ActiveRules)
    (hsame : SameEvent E.rt call E.transaction E.record.tx)
    (hclaimed : storedRef w.db E.key = some (.text E.record.ref))
    (href : E.record.ref ≠ decisionRef E.record.tx.eventId) (hi : w.tasks i = .idle)
    (hrule : Engine.refusal (E.transaction.stamped call) rules = none) :
    ∃ labels w', Run (FlowStep E) w labels w' ∧ ∃ a ∈ labels, ¬ a.NoReplay := by
  have hstatus : replayStatusOf (storedRef w.db (Engine.txKeys E.rt (E.transaction.stamped call)).replay)
      (Engine.txArgs E.gcfg (E.transaction.stamped call)) = .replay := by
    rw [hsame.replay_key, ← Setting.key, hclaimed, replayStatusOf, hsame.recordRef, replayVerdict,
      if_neg href, Engine.txArgs, hsame.stamped_eventId, if_neg href]
  set out := Engine.runTxCheck E.rt E.gcfg 0 (E.transaction.stamped call) w.db with hout
  have hreply : out.1.replayStatus = .replay := by
    rw [hout, Engine.runTxCheck, txCheck_replayStatus (Engine.txKeys_distinct _ _), hstatus]
  have hscript : Run (FlowStep E) w [.quiet, .decideScript]
      ((w.goto w.db i (.looked call)).goto out.2 i (afterScript call out.1)) :=
    .cons (.lookup i call rules hsame hi hrule) (.single (.script i 0 call hsame (by simp)))
  rw [afterScript, if_neg (by rw [hreply]; decide)] at hscript
  refine ⟨_, _, hscript.snoc (.store i 0 call out.1 hsame (by simp)), _,
    List.mem_append_right _ List.mem_cons_self, fun hno => ?_⟩
  have hreason := (Engine.mem_interpret_types 0 (by rw [hstatus]; decide) _).mpr
    (Or.inl ⟨rfl, hstatus⟩)
  obtain ⟨x, hx, htype⟩ := List.mem_map.mp hreason
  exact hno x hx htype

end

namespace Sample

/-- The event `e1` with its record at offset 0. -/
def setting : Setting := ⟨runtime, {}, {}, {}, transaction "e1", record 0 "e1"⟩

/-- Nothing stored, no task started. -/
def fresh : World := ⟨fun _ => none, fun _ => .idle⟩

/-- A step-up is pending for `u1`, and nothing else is stored. -/
def stepUp : Db := fun k => if k = stepUpKey "u1" then some ⟨.str (.text "geo"), some 900000⟩ else none

/-- The script call for the record of `e1` in the step-up state. -/
def checked : TxReply × Db :=
  txCheck runtime 0 (txKeys runtime (tx "e1")) (txArgs {} (tx "e1") (record 0 "e1").ref 1704067200) stepUp

/-- The same with the step-up cleared. -/
def cleared : Db := Function.update checked.2 (stepUpKey "u1") none

theorem cleared_key : cleared setting.key = checked.2 setting.key :=
  Function.update_of_ne
    (append_ne_of_incomparable (p := replayKeyPrefix) (q := stepUpKeyPrefix) (by decide) _ "u1") none checked.2

theorem cleared_result : cleared setting.result = checked.2 setting.result :=
  Function.update_of_ne
    (append_ne_of_incomparable (p := resultKeyPrefix) (q := stepUpKeyPrefix) (by decide) _ "u1") none checked.2

theorem storedRef_checked : storedRef checked.2 setting.key = some (.text (record 0 "e1").ref) :=
  storedRef_txCheck _ _ _ _ (txKeys_distinct runtime (tx "e1"))

theorem storedRef_cleared : storedRef cleared setting.key = some (.text (record 0 "e1").ref) := by
  rw [← storedRef_checked, storedRef, storedRef, cleared_key]

theorem checked_status : checked.1.replayStatus ≠ .prescored := by
  rw [checked, txCheck_replayStatus (txKeys_distinct _ _)]
  decide

end Sample

/-- A call of `Decide` on a fresh event is no replay. -/
theorem no_selfReplay_fresh :
    Action.NoReplay (.report (.decision (Engine.scored {} Sample.call
      ((Sample.transaction "e1").stamped Sample.call)
      (Engine.runTxCheck Sample.runtime {} 0 ((Sample.transaction "e1").stamped Sample.call)
        fun _ => none).1))) := by
  have hsame := Sample.sameEvent "e1"
  have hlook : TimelyStep Sample.setting Sample.fresh .quiet
      (Sample.fresh.goto (fun _ => none) 0 (.looked Sample.call)) :=
    ⟨.lookup 0 Sample.call ⟨false, false, false⟩ hsame rfl rfl, by simp⟩
  have hscript := FlowStep.script (E := Sample.setting)
    (w := Sample.fresh.goto (fun _ => none) 0 (.looked Sample.call)) 0 0 Sample.call hsame (by simp)
  have hstatus : (Engine.runTxCheck Sample.runtime {} 0 ((Sample.transaction "e1").stamped Sample.call)
      fun _ => none).1.replayStatus ≠ .redelivery := by
    rw [Engine.runTxCheck, txCheck_replayStatus (Engine.txKeys_distinct _ _)]
    simp [storedRef, replayStatusOf]
  have hrun := (Run.cons hlook (.single ⟨hscript, fun _ => Or.inl rfl⟩)).snoc
    ⟨.store 0 0 Sample.call _ hsame (by rw [World.goto_tasks_self, afterScript]; exact if_neg hstatus), by simp⟩
  exact no_selfReplay (E := Sample.setting) (w := Sample.fresh) rfl rfl (fun _ => rfl) hrun _
    (List.mem_append_right _ List.mem_cons_self)

/-- A call is challenged, the event is published and handled, the step-up is cleared, and the retry of the
call reports the event as a replay of itself. -/
theorem retry_after_step_up_is_replay :
    storedRef Sample.stepUp Sample.setting.key = none ∧ payload (Sample.stepUp Sample.setting.result) = none ∧
      ∃ labels w, Run (FlowStep Sample.setting) ⟨Sample.stepUp, fun _ => .idle⟩ labels w ∧
        ∃ a ∈ labels, ¬ a.NoReplay := by
  refine ⟨rfl, rfl, ?_⟩
  have hsame := Sample.sameEvent "e1"
  let w₀ : World := ⟨Sample.stepUp, fun _ => .idle⟩
  let w₁ := w₀.goto Sample.stepUp 0 .done
  let w₂ := w₁.goto Sample.stepUp 1 .admitted
  let w₃ := w₂.goto Sample.checked.2 1 .done
  let w₄ : World := ⟨Sample.cleared, w₃.tasks⟩
  have hchallenged : FlowStep Sample.setting w₀ _ w₁ :=
    .refuse 0 Sample.call ⟨false, true, false⟩ _ _ rfl rfl
  have hentered : FlowStep Sample.setting w₁ _ w₂ := .enter 1 rfl
  have hchecked : FlowStep Sample.setting w₂ _ w₃ :=
    .check 1 0 1704067200 rfl (congrArg Except.ok (by decide +kernel)) Sample.checked_status
  have hcleared : FlowStep Sample.setting w₃ .quiet w₄ :=
    .other _ (Or.inl (by rw [storedRef, storedRef, Sample.cleared_key]; rfl))
      (Or.inl (by rw [Sample.cleared_result]; rfl))
  obtain ⟨labels, w, hrun, a, ha, hreplay⟩ := exists_selfReplay (i := 2) (w := w₄) ⟨false, false, false⟩
    hsame Sample.storedRef_cleared Sample.record_ref_ne rfl rfl
  exact ⟨_, w, .cons hchallenged (.cons hentered (.cons hchecked (.cons hcleared hrun))), a,
    by simp [ha], hreplay⟩

end Rtace
