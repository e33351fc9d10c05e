import Rtace.Decision.Document
import Rtace.Lib.Transition

/-!
# Replays of a scored event

After `Decide` scored an event, its Kafka records meet a replay key that the decision service may have
written. The key keeps its first reference, so every record is judged against the same one.
-/

namespace Rtace

open Lib Redis

/-- One Kafka record with the transaction: what `tx_check` reported for it, and its candidates. -/
structure Arrival where
  ref : String
  status : ReplayStatus
  candidates : List DetectionEvent

/-- Steps after a decision, while the replay key lives: a Kafka record with the transaction of a user
who is not quarantined is handled, or anything happens that leaves the replay key alone. -/
inductive ArrivalStep (rt : Runtime) (kafka : KafkaConfig) (cfg : RedisConfig) (tx : TransactionEvent)
    (ts : ℚ) : Db → Option Arrival → Db → Prop
  | deliver {db : Db} (now : ℕ) (r : TxRecord rt kafka) (htx : r.tx = tx)
      (hfree : db (quarantineKey tx.userId) = none) :
      ArrivalStep rt kafka cfg tx ts db
        (some ⟨r.ref, (txCheck rt now (txKeys rt tx) (txArgs cfg tx r.ref ts) db).1.replayStatus,
          (recordCandidates rt kafka cfg now r.record db).toOption.getD []⟩)
        (handleBatch rt kafka cfg now [r.record] db).2
  | other {db db' : Db} (h : db' (replayKey (tx.replayHash rt)) = db (replayKey (tx.replayHash rt))) :
      ArrivalStep rt kafka cfg tx ts db none db'

/-- All records but one are reported as replays. -/
def OneOriginal (arrivals : List Arrival) : Prop :=
  ∃ original, ∀ x ∈ arrivals, x.ref ≠ original →
    x.status = .replay ∧ ∃ d ∈ x.candidates, d.detectionType = "replay_attack"

theorem replayKey_notMem_cooldownKeys (hash : String) : replayKey hash ∉ cooldownKeys :=
  Set.disjoint_left.mp cooldownKeys_disjoint (Or.inl (mem_keyFamilies (by simp) _))

theorem replayKey_ne_resultKey (hash eventId : String) : replayKey hash ≠ resultKey eventId :=
  append_ne_of_incomparable (p := replayKeyPrefix) (q := resultKeyPrefix) (by decide) _ _

/-- Under the event's own decision reference no delivery is a replay. -/
theorem replayVerdict_own (ref eventId : String) :
    replayVerdict (.text (decisionRef eventId)) ref eventId ≠ .replay := by
  simp only [replayVerdict]
  split <;> simp

/-- Any other reference exempts at most one delivery. -/
theorem exists_exempt {p : Payload} {eventId : String} (h : p ≠ .text (decisionRef eventId)) :
    ∃ original, ∀ ref, ref ≠ original → replayVerdict p ref eventId = .replay := by
  cases p with
  | text s =>
      have hown : s ≠ decisionRef eventId := fun heq => h (by rw [heq])
      refine ⟨s, fun ref hne => ?_⟩
      simp only [replayVerdict, if_neg hne.symm, if_neg hown]
  | json j => exact ⟨"", fun _ _ => rfl⟩

/-- `Decide` leaves the reference it found under the replay key, or its own. -/
theorem storedRef_decide {rt : Runtime} {gcfg : Engine.Config} {now : ℕ} {call : Engine.Call}
    {g : Engine.Transaction} {tx : TransactionEvent} {db : Db} (hsame : SameEvent rt call g tx)
    (hids : ¬ (g.eventId = "" ∨ g.userId = ""))
    (hrule : Engine.refusal (g.stamped call) (Engine.activeRules db (g.stamped call)) = none) :
    storedRef (Engine.decide rt gcfg now call g db).2 (replayKey (tx.replayHash rt)) =
      some ((storedRef db (replayKey (tx.replayHash rt))).getD (.text (decisionRef tx.eventId))) := by
  have hscript := storedRef_txCheck rt now (Engine.txArgs gcfg (g.stamped call)) db
    (Engine.txKeys_distinct rt (g.stamped call))
  rw [hsame.replay_key, hsame.recordRef] at hscript
  rw [← hscript]
  simp only [storedRef, Engine.decide_frame hids hrule (replayKey_ne_resultKey _ _), Engine.runTxCheck]

/-- Handling a record leaves the reference it found under the replay key, or its own. -/
theorem storedRef_handleBatch {rt : Runtime} {kafka : KafkaConfig} {cfg : RedisConfig} {now : ℕ} {db : Db}
    {ts : ℚ} (r : TxRecord rt kafka) (hts : r.tx.timestamp.timestamp rt = .ok ts)
    (hfree : db (quarantineKey r.tx.userId) = none) :
    storedRef (handleBatch rt kafka cfg now [r.record] db).2 (replayKey (r.tx.replayHash rt)) =
      some ((storedRef db (replayKey (r.tx.replayHash rt))).getD (.text r.ref)) := by
  have hscript := storedRef_txCheck rt now (txArgs cfg r.tx r.ref ts) db (txKeys_distinct rt r.tx)
  rw [storedRef, handleBatch_tx_frame cfg now r db (replayKey_notMem_cooldownKeys _), scanTx_free cfg _ _ hts hfree]
  exact hscript

/-- A replay status is a finding, whatever the other sections of the script say. -/
theorem exists_mem_findings_replay (cfg : RedisConfig) (tx : TransactionEvent) {r : TxReply}
    (h : r.replayStatus = .replay) : ∃ d ∈ findings cfg tx r, d.detectionType = "replay_attack" := by
  simp only [findings, replayInterpret, h, if_true, List.filterMap_cons, id]
  exact ⟨_, List.mem_cons_self, rfl⟩

/-- The step lemma: a stored reference stays, and decides what is reported. -/
theorem arrivalStep_judged {rt : Runtime} {kafka : KafkaConfig} {cfg : RedisConfig} {tx : TransactionEvent}
    {ts : ℚ} {p : Payload} (hts : tx.timestamp.timestamp rt = .ok ts) {db db' : Db} {l : Option Arrival}
    (hp : storedRef db (replayKey (tx.replayHash rt)) = some p)
    (hstep : ArrivalStep rt kafka cfg tx ts db l db') :
    storedRef db' (replayKey (tx.replayHash rt)) = some p ∧
      ∀ x ∈ l, x.status = replayVerdict p x.ref tx.eventId ∧
        (x.status = .replay → ∃ d ∈ x.candidates, d.detectionType = "replay_attack") := by
  cases hstep with
  | other h => exact ⟨by rw [← hp, storedRef, storedRef, h], by simp⟩
  | deliver now r htx hfree =>
      subst htx
      refine ⟨by rw [storedRef_handleBatch r hts hfree, hp, Option.getD_some], ?_⟩
      intro x hx
      obtain rfl := Option.mem_some_iff.mp hx
      refine ⟨?_, fun hreplay => ?_⟩
      · rw [txCheck_replayStatus (txKeys_distinct rt r.tx)]
        simp only [txKeys, hp, replayStatusOf, txArgs]
      · dsimp only at hreplay ⊢
        rw [recordCandidates_tx, scanTx_free cfg _ _ hts hfree]
        simp only [hreplay, reduceCtorEq, if_false]
        obtain ⟨d, hd, htype⟩ := exists_mem_findings_replay cfg r.tx hreplay
        exact ⟨_, List.mem_map_of_mem hd, htype⟩

/-- The run lemma: after a decision every record is judged by one reference, the one `Decide` found or
left. -/
theorem arrivals_judged {rt : Runtime} {kafka : KafkaConfig} {cfg : RedisConfig} {gcfg : Engine.Config}
    {now : ℕ} {call : Engine.Call} {g : Engine.Transaction} {tx : TransactionEvent} {db₀ db : Db}
    {labels : List (Option Arrival)} (hsame : SameEvent rt call g tx)
    (hids : ¬ (g.eventId = "" ∨ g.userId = ""))
    (hrule : Engine.refusal (g.stamped call) (Engine.activeRules db₀ (g.stamped call)) = none)
    (hrun : Run (ArrivalStep rt kafka cfg tx (g.stamped call).nowTs)
      (Engine.decide rt gcfg now call g db₀).2 labels db) {x : Arrival} (hx : some x ∈ labels) :
    x.status = replayVerdict ((storedRef db₀ (replayKey (tx.replayHash rt))).getD
        (.text (decisionRef tx.eventId))) x.ref tx.eventId ∧
      (x.status = .replay → ∃ d ∈ x.candidates, d.detectionType = "replay_attack") := by
  have hjudged := (hrun.invariant_labels
    (I := fun db => storedRef db (replayKey (tx.replayHash rt)) = some _)
    (storedRef_decide hsame hids hrule)
    (fun _ _ _ hI hstep => arrivalStep_judged hsame.timestamp hI hstep)).2
  exact hjudged _ hx x rfl

/-- Of two different records one is not the original. -/
theorem not_oneOriginal {labels : List (Option Arrival)}
    (hdistinct : ∃ x y, some x ∈ labels ∧ some y ∈ labels ∧ x.ref ≠ y.ref)
    (h : ∀ x, some x ∈ labels → x.status ≠ .replay) : ¬ OneOriginal (labels.filterMap id) := by
  rintro ⟨original, horiginal⟩
  have hexempt : ∀ x, some x ∈ labels → x.ref = original := by
    intro x hx
    by_contra hne
    exact h x hx (horiginal x (List.mem_filterMap.mpr ⟨_, hx, rfl⟩) hne).1
  obtain ⟨x, y, hx, hy, hne⟩ := hdistinct
  exact hne ((hexempt x hx).trans (hexempt y hy).symm)

/-- Let `Decide` score a transaction that then arrives in Kafka records, at least two of them different,
while the replay key lives. All but one of the records are reported as replays exactly when the replay
key already held a reference other than `decision:{event_id}` before the call: a reference of its own
exempts every later record. -/
theorem decide_then_arrivals {rt : Runtime} {kafka : KafkaConfig} {cfg : RedisConfig} {gcfg : Engine.Config}
    {now : ℕ} {call : Engine.Call} {g : Engine.Transaction} {tx : TransactionEvent} {db₀ db : Db}
    {labels : List (Option Arrival)} (hsame : SameEvent rt call g tx)
    (hids : ¬ (g.eventId = "" ∨ g.userId = ""))
    (hrule : Engine.refusal (g.stamped call) (Engine.activeRules db₀ (g.stamped call)) = none)
    (hrun : Run (ArrivalStep rt kafka cfg tx (g.stamped call).nowTs)
      (Engine.decide rt gcfg now call g db₀).2 labels db)
    (hdistinct : ∃ x y, some x ∈ labels ∧ some y ∈ labels ∧ x.ref ≠ y.ref) :
    OneOriginal (labels.filterMap id) ↔
      ∃ p, storedRef db₀ (replayKey (tx.replayHash rt)) = some p ∧ p ≠ .text (decisionRef tx.eventId) := by
  have hjudged : ∀ x, some x ∈ labels → _ := fun x hx => arrivals_judged hsame hids hrule hrun hx
  constructor
  · intro hone
    by_contra hnone
    refine not_oneOriginal hdistinct (fun x hx => ?_) hone
    -- an absent reference is replaced by the decision's own, and that exempts every record
    have hown : (storedRef db₀ (replayKey (tx.replayHash rt))).getD (.text (decisionRef tx.eventId))
        = .text (decisionRef tx.eventId) := by
      cases hs : storedRef db₀ (replayKey (tx.replayHash rt)) with
      | none => rfl
      | some p => exact not_not.mp fun hp => hnone ⟨p, hs, hp⟩
    rw [(hjudged x hx).1, hown]
    exact replayVerdict_own x.ref tx.eventId
  · rintro ⟨p, hp, hother⟩
    obtain ⟨original, horiginal⟩ := exists_exempt hother
    refine ⟨original, fun x hx hne => ?_⟩
    obtain ⟨_, hl, rfl⟩ := List.mem_filterMap.mp hx
    obtain ⟨hstatus, hcandidate⟩ := hjudged x hl
    have hreplay : x.status = .replay := by rw [hstatus, hp, Option.getD_some, horiginal x.ref hne]
    exact ⟨hreplay, hcandidate hreplay⟩

namespace Sample

/-- The keyspace after `Decide` on the event `e1`. -/
def decided (db : Db) : Db := (Engine.decide runtime {} 0 call (transaction "e1") db).2

/-- The arrival of `e1` in the record at `offset`. -/
def arrival (db : Db) (offset : ℕ) : Arrival :=
  ⟨(record offset "e1").ref,
    (txCheck runtime 0 (txKeys runtime (tx "e1"))
      (txArgs {} (tx "e1") (record offset "e1").ref ((transaction "e1").stamped call).nowTs) db).1.replayStatus,
    (recordCandidates runtime {} {} 0 (record offset "e1").record db).toOption.getD []⟩

/-- The keyspace after the record at `offset` is handled. -/
def handled (db : Db) (offset : ℕ) : Db := (handleBatch runtime {} {} 0 [(record offset "e1").record] db).2

theorem decided_quarantine (db : Db) : decided db (quarantineKey "u1") = db (quarantineKey "u1") :=
  Engine.decide_untouched runtime {} 0 call (transaction "e1") db
    (fun h => quarantineKey_notMem_detectionKeys "u1" (txKeys_subset runtime (tx "e1") h))
    (append_ne_of_incomparable (p := quarantineKeyPrefix) (q := resultKeyPrefix) (by decide) _ _)

/-- Two records of `e1` arrive after a decision. -/
theorem run_arrivals (db : Db) (h : db (quarantineKey "u1") = none) :
    Run (ArrivalStep runtime {} {} (tx "e1") ((transaction "e1").stamped call).nowTs) (decided db)
      [some (arrival (decided db) 0), some (arrival (handled (decided db) 0) 1)]
      (handled (handled (decided db) 0) 1) := by
  have h₁ : decided db (quarantineKey "u1") = none := (decided_quarantine db).trans h
  have h₂ : handled (decided db) 0 (quarantineKey "u1") = none :=
    (handleBatch_tx_quarantine {} 0 (record 0 "e1") (decided db) "u1").trans h₁
  exact .cons (.deliver 0 (record 0 "e1") rfl h₁) (.single (.deliver 0 (record 1 "e1") rfl h₂))

end Sample

/-- After a decision on a record that Kafka had delivered before, a second record is a replay. -/
theorem decide_then_arrivals_seen :
    let seen : Db := fun k => if k = replayKey ((Sample.tx "e1").replayHash Sample.runtime) then
      some ⟨.str (.text "tx-events:0:0"), some 86400000⟩ else none
    OneOriginal [Sample.arrival (Sample.decided seen) 0,
      Sample.arrival (Sample.handled (Sample.decided seen) 0) 1] := by
  intro seen
  refine (decide_then_arrivals (Sample.sameEvent "e1") (by decide) rfl (Sample.run_arrivals seen rfl)
    ⟨_, _, List.mem_cons_self, List.mem_cons_of_mem _ List.mem_cons_self, ?_⟩).mpr
      ⟨.text "tx-events:0:0", rfl, ?_⟩
  · show (Sample.record 0 "e1").ref ≠ (Sample.record 1 "e1").ref
    decide
  · simp [decisionRef, Sample.tx]

/-- After a decision on an unseen event, neither of two records is a replay. -/
theorem decide_hides_replay :
    ∃ labels db, Run (ArrivalStep Sample.runtime {} {} (Sample.tx "e1")
        ((Sample.transaction "e1").stamped Sample.call).nowTs)
        (Engine.decide Sample.runtime {} 0 Sample.call (Sample.transaction "e1") fun _ => none).2 labels db ∧
      (∃ x y, some x ∈ labels ∧ some y ∈ labels ∧ x.ref ≠ y.ref) ∧
      ¬ OneOriginal (labels.filterMap id) := by
  have hrun := Sample.run_arrivals (fun _ => none) rfl
  have hne : (Sample.record 0 "e1").ref ≠ (Sample.record 1 "e1").ref := by decide
  refine ⟨_, _, hrun, and_iff_left_of_imp (fun hdistinct => not_oneOriginal hdistinct fun x hx => ?_) |>.mpr
    ⟨_, _, List.mem_cons_self, List.mem_cons_of_mem _ List.mem_cons_self, hne⟩⟩
  rw [(arrivals_judged (Sample.sameEvent "e1") (by decide) rfl hrun hx).1]
  exact replayVerdict_own x.ref "e1"

end Rtace
