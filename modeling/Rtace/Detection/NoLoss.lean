import Rtace.Detection.Consumer
import Rtace.Detection.SingleRecord

/-!
# No detection is lost through the cooldown

A cooldown key suppresses later detections in the name of its owner, the detection whose id it holds. So
nothing is lost as long as the owner of every cooldown key has been acknowledged or belongs to the
attempt under way, which will confirm it or release the key (`Kept`). The engine keeps this up in every
run in which no claim is left behind: by a crash, by a failed round trip, or by a failed release.
-/

namespace Rtace

open Lib Redis

/-! ## Claims and releases -/

/-- One claim: the key is held afterwards, and changed only if it was free. -/
theorem cooldownClaim_apply (cfg : RedisConfig) (now : ℕ) (d : DetectionEvent) (db : Db) :
    cooldownClaim cfg now d db = ((db (cooldownKey d)).isNone, if db (cooldownKey d) = none then
      Function.update db (cooldownKey d)
        (some ⟨.str (.text d.detectionId), deadline now cfg.detectionCooldownSeconds.toNat⟩) else db) := by
  simp only [cooldownClaim, setNxEx, atKey]
  cases h : db (cooldownKey d) with
  | none => rfl
  | some x =>
      have hsame : Function.update db (cooldownKey d) (some x) = db := by rw [← h, Function.update_eq_self]
      simp [hsame]

theorem runAll_claims_length (cfg : RedisConfig) (now : ℕ) (ds : List DetectionEvent) (db : Db) :
    (runAll (ds.map (cooldownClaim cfg now)) db).1.length = ds.length := by
  rw [runAll_length, List.length_map]

theorem cooldownWinners_cons (d : DetectionEvent) (ds : List DetectionEvent) (won : Bool) (rest : List Bool) :
    cooldownWinners (d :: ds) (won :: rest) =
      if won then d :: cooldownWinners ds rest else cooldownWinners ds rest := by
  cases won <;> simp [cooldownWinners]

/-- After the claims a key is as it was, or was free and is now held by a winner. -/
theorem claims_key (cfg : RedisConfig) (now : ℕ) (ds : List DetectionEvent) (db : Db) (k : String) :
    let out := runAll (ds.map (cooldownClaim cfg now)) db
    out.2 k = db k ∨ db k = none ∧ ∃ d ∈ cooldownWinners ds out.1, cooldownKey d = k ∧
      payload (out.2 k) = some (.text d.detectionId) := by
  induction ds generalizing db with
  | nil => exact .inl rfl
  | cons d ds ih =>
      simp only [List.map_cons, runAll_cons, cooldownClaim_apply, cooldownWinners_cons]
      by_cases hfree : db (cooldownKey d) = none
      · simp only [hfree, Option.isNone_none, if_true]
        set db' := Function.update db (cooldownKey d)
          (some ⟨.str (.text d.detectionId), deadline now cfg.detectionCooldownSeconds.toNat⟩) with hdb'
        rcases ih db' with heq | ⟨hnone, d', hd', hkey, hown⟩
        · rcases eq_or_ne k (cooldownKey d) with rfl | hne
          · refine .inr ⟨hfree, d, List.mem_cons_self, rfl, ?_⟩
            rw [heq, hdb', Function.update_self, payload_str]
          · exact .inl (by rw [heq, hdb', Function.update_of_ne hne])
        · have hne : k ≠ cooldownKey d := by
            rintro rfl
            simp [hdb'] at hnone
          rw [hdb', Function.update_of_ne hne] at hnone
          exact .inr ⟨hnone, d', List.mem_cons_of_mem _ hd', hkey, hown⟩
      · have hheld : (db (cooldownKey d)).isNone = false := by
          rw [Bool.eq_false_iff, Ne, Option.isNone_iff_eq_none]
          exact hfree
        simpa only [hfree, hheld, if_false, Bool.false_eq_true] using ih db

/-- Every claimed key is held afterwards. -/
theorem claims_held (cfg : RedisConfig) (now : ℕ) (ds : List DetectionEvent) (db : Db) {d : DetectionEvent}
    (hd : d ∈ ds) : (runAll (ds.map (cooldownClaim cfg now)) db).2 (cooldownKey d) ≠ none := by
  induction ds generalizing db with
  | nil => cases hd
  | cons d' ds ih =>
      rw [List.map_cons, runAll_cons]
      rcases List.mem_cons.mp hd with rfl | hd
      · have hself : (cooldownClaim cfg now d db).2 (cooldownKey d) ≠ none := by
          rw [cooldownClaim_apply]
          split
          · simp
          · assumption
        rcases claims_key cfg now ds (cooldownClaim cfg now d db).2 (cooldownKey d) with heq | ⟨hnone, -⟩
        · rw [heq]
          exact hself
        · exact absurd hnone hself
      · exact ih _ hd

/-- Claims that meet only held keys change nothing. -/
theorem claims_noop (cfg : RedisConfig) (now : ℕ) (ds : List DetectionEvent) (db : Db)
    (h : ∀ d ∈ ds, db (cooldownKey d) ≠ none) : (runAll (ds.map (cooldownClaim cfg now)) db).2 = db := by
  induction ds with
  | nil => rfl
  | cons d ds ih =>
      rw [List.map_cons, runAll_cons, cooldownClaim_apply, if_neg (h d List.mem_cons_self)]
      exact ih fun d' hd' => h d' (List.mem_cons_of_mem _ hd')

theorem filterCooledDown_eq {cfg : RedisConfig} (hcd : 0 < cfg.detectionCooldownSeconds) (now : ℕ)
    (ds : List DetectionEvent) (db : Db) :
    let out := runAll (ds.map (cooldownClaim cfg now)) db
    filterCooledDown cfg now ds db
      = ((cooldownWinners ds out.1, (cooldownWinners ds out.1).map cooldownKey), out.2) := by
  cases ds with
  | nil => rfl
  | cons d ds =>
      simp only [filterCooledDown, List.isEmpty_cons, Bool.false_eq_true, if_false, not_le.mpr hcd]
      rfl

/-- A release deletes its keys and nothing else. -/
theorem releaseCooldown_apply (keys : List String) (db : Db) (k : String) :
    (releaseCooldown keys db).2 k = if k ∈ keys then none else db k := by
  simp only [releaseCooldown, bind_apply, pure_apply]
  induction keys generalizing db with
  | nil => simp
  | cons j keys ih =>
      rw [List.map_cons, runAll_cons, ih]
      rcases eq_or_ne k j with rfl | hne
      · simp [del, atKey]
      · simp [del, atKey, hne]

/-- Phases A to C leave the cooldown keys alone. -/
theorem analyse_cooldown (rt : Runtime) (cfg : RedisConfig) (now : ℕ) (items : List Item) (db : Db)
    {k : String} (hk : k ∈ cooldownKeys) : (analyse rt cfg now items db).2 k = db k :=
  (footprint_analyse rt cfg now items).frame db k fun h => Set.disjoint_left.mp cooldownKeys_disjoint h hk

/-! ## What is acknowledged -/

/-- The detection with id `i` has been acknowledged on the detections topic. -/
def AckedDetection (p : Producer DetectionMessage) (i : String) : Prop :=
  ∃ n ∈ p.acked, ∃ d, p.log[n]? = some (.fromHandler (.detection d)) ∧ d.detectionId = i

/-- What was sent and what was acknowledged stays so. -/
theorem producer_mono {M : Type} {c : Codec} {settings : LoopSettings} {s t : Loop M} {l : LoopLabel M}
    (h : LoopStep c settings s l t) :
    s.producer.log <+: t.producer.log ∧ s.producer.acked ⊆ t.producer.acked := by
  have hrefl : s.producer.log <+: s.producer.log ∧ s.producer.acked ⊆ s.producer.acked :=
    ⟨List.prefix_rfl, fun _ hn => hn⟩
  cases h with
  | handlerSend | sendToDlq => exact ⟨List.prefix_append .., fun _ hn => hn⟩
  | handlerEnd records o =>
      unfold Loop.finish
      split <;> exact hrefl
  | ack n => exact ⟨List.prefix_rfl, List.subset_append_left ..⟩
  | _ => exact hrefl

theorem AckedDetection.mono {p q : Producer DetectionMessage} {i : String} (h : AckedDetection p i)
    (hlog : p.log <+: q.log) (hack : p.acked ⊆ q.acked) : AckedDetection q i := by
  obtain ⟨n, hn, d, hd, hi⟩ := h
  exact ⟨n, hack hn, d, getElem?_of_prefix hlog hd, hi⟩

/-- The detections whose cooldown the attempt has claimed and not yet confirmed or released. -/
def Task.held : Task → List DetectionEvent
  | .emitting _ result | .releasing result => result.emitted
  | _ => []

/-- Detection `i` is acknowledged, or the attempt under way answers for it. -/
def Answerable (s : Engine) (i : String) : Prop :=
  AckedDetection s.loop.producer i ∨ ∃ d ∈ s.task.held, d.detectionId = i

/-- The current attempt may still lead to a commit. -/
def Phase.live : Phase → Bool
  | .handling _ | .deadLettering .. | .verifying _ | .committing _ => true
  | _ => false

/-- Every cooldown key has an owner that was acknowledged, or that the attempt answers for. -/
def Owned (s : Engine) : Prop :=
  ∀ k ∈ cooldownKeys, s.db k ≠ none → ∃ i, payload (s.db k) = some (.text i) ∧
    (AckedDetection s.loop.producer i ∨ ∃ d ∈ s.task.held, cooldownKey d = k ∧ d.detectionId = i)

/-- Every candidate of the attempt is answered for, or the owner of the key that suppressed it is. -/
def Vouched (s : Engine) : Prop :=
  ∀ j ∈ s.judged, (j.won = true → Answerable s j.candidate.detectionId) ∧
    (j.won = false → ∃ i, j.owner = some (.text i) ∧ Answerable s i)

/-- Nothing has been lost so far, and nothing that is claimed will be. -/
structure Kept (e : Deployment) (s : Engine) : Prop where
  delivery : Delivery s.loop
  /-- The handler runs only while the loop waits for it. -/
  busy : s.task ≠ .idle → ∃ records, s.loop.phase = .handling records ∧ decodedOf e.codec records ≠ []
  /-- Only a failed flush consumes the latch. -/
  latch : ∀ records, s.loop.phase = .handling records → (∀ result, s.task ≠ .releasing result) →
    s.loop.swallowed = false
  /-- What has won its cooldown is sent, or about to be. -/
  sent : ∀ todo result, s.task = .emitting todo result → ∀ d ∈ result.emitted, d ∈ todo ∨
    ∃ n ∈ s.loop.sent, s.loop.producer.log[n]? = some (.fromHandler (.detection d))
  claimed : ∀ result, (∃ todo, s.task = .emitting todo result) ∨ s.task = .releasing result →
    result.claimedCooldownKeys = result.emitted.map cooldownKey
  owned : Owned s
  vouched : s.loop.phase.live → Vouched s

section Transfer

variable {s t : Engine}

/-- Ownership survives a step that changes no cooldown key, except that it may be gone, and that
acknowledges what it no longer answers for. -/
theorem Owned.transfer (h : Owned s) (hdb : ∀ k ∈ cooldownKeys, t.db k = s.db k ∨ t.db k = none)
    (hmono : s.loop.producer.log <+: t.loop.producer.log ∧ s.loop.producer.acked ⊆ t.loop.producer.acked)
    (hheld : ∀ d ∈ s.task.held, d ∈ t.task.held ∨ AckedDetection t.loop.producer d.detectionId) : Owned t := by
  intro k hk hpresent
  rcases hdb k hk with heq | hgone
  · rw [heq] at hpresent ⊢
    obtain ⟨i, hi, hack | ⟨d, hd, hkey, rfl⟩⟩ := h k hk hpresent
    · exact ⟨i, hi, .inl (hack.mono hmono.1 hmono.2)⟩
    · rcases hheld d hd with hd | hack
      · exact ⟨_, hi, .inr ⟨d, hd, hkey, rfl⟩⟩
      · exact ⟨_, hi, .inl hack⟩
  · exact absurd hgone hpresent

theorem Answerable.transfer {i : String} (h : Answerable s i)
    (hmono : s.loop.producer.log <+: t.loop.producer.log ∧ s.loop.producer.acked ⊆ t.loop.producer.acked)
    (hheld : ∀ d ∈ s.task.held, d ∈ t.task.held ∨ AckedDetection t.loop.producer d.detectionId) :
    Answerable t i := by
  rcases h with hack | ⟨d, hd, rfl⟩
  · exact .inl (hack.mono hmono.1 hmono.2)
  · rcases hheld d hd with hd | hack
    · exact .inr ⟨d, hd, rfl⟩
    · exact .inl hack

theorem Vouched.transfer (h : Vouched s) (hjudged : t.judged ⊆ s.judged)
    (hmono : s.loop.producer.log <+: t.loop.producer.log ∧ s.loop.producer.acked ⊆ t.loop.producer.acked)
    (hheld : ∀ d ∈ s.task.held, d ∈ t.task.held ∨ AckedDetection t.loop.producer d.detectionId) :
    Vouched t := by
  intro j hj
  obtain ⟨hwon, hlost⟩ := h j (hjudged hj)
  refine ⟨fun hw => (hwon hw).transfer hmono hheld, fun hl => ?_⟩
  obtain ⟨i, hi, hans⟩ := hlost hl
  exact ⟨i, hi, hans.transfer hmono hheld⟩

end Transfer

/-! ## Steps of the loop -/

section LoopSteps

variable {M : Type} {c : Codec} {settings : LoopSettings} {s t : Loop M} {l : LoopLabel M}

/-- While the handler runs, the loop only watches the broker. -/
theorem waiting_step {records : List Record} (hp : s.phase = .handling records)
    (hdec : decodedOf c records ≠ []) (hl : l.ofHandler = false) (h : LoopStep c settings s l t) :
    t.phase = s.phase ∧ t.sent = s.sent ∧ t.swallowed = s.swallowed ∧ l.startsAttempt = false := by
  cases h with
  | ack | fail | shutdown => exact ⟨rfl, rfl, rfl, rfl⟩
  | handlerSend | handlerFlush | handlerFlushRaised | handlerEnd => cases hl
  | noHandler records' hp' hdec' =>
      rw [hp] at hp'
      cases hp'
      exact absurd hdec' hdec
  | pollNothing hp' | poll _ hp' | pollSkipped _ hp' | pollEscape _ hp' | stop hp' | sendToDlq _ _ _ _ _ _ hp'
  | dlqEscape _ _ hp' | sentToDlq _ hp' | verified _ _ hp' | notVerified _ hp' | sleep _ hp' | retry _ hp'
  | abandon _ _ hp' | commit _ _ hp' =>
      rw [hp] at hp'
      cases hp'

/-- An attempt starts with nothing consumed. -/
theorem handling_step {records : List Record} (hl : l.ofHandler = false) (h : LoopStep c settings s l t)
    (ht : t.phase = .handling records) :
    t.swallowed = false ∨ s.phase = .handling records ∧ t.swallowed = s.swallowed := by
  cases h with
  | poll | retry => exact .inl rfl
  | pollNothing | ack | fail | shutdown => exact .inr ⟨ht, rfl⟩
  | handlerSend | handlerFlush | handlerFlushRaised | handlerEnd => cases hl
  | pollSkipped | pollEscape | stop | noHandler | sendToDlq | dlqEscape | sentToDlq | verified | notVerified
  | sleep | abandon | commit => cases ht

/-- Only the start of an attempt makes one live. -/
theorem live_step (hl : l.startsAttempt = false) (h : LoopStep c settings s l t) (ht : t.phase.live) :
    s.phase.live := by
  cases h with
  | poll | pollSkipped | retry => cases hl
  | pollNothing | handlerSend | handlerFlush | handlerFlushRaised | ack | fail | shutdown => exact ht
  | handlerEnd _ _ hp | noHandler _ hp | sendToDlq _ _ _ _ _ _ hp | sentToDlq _ hp | verified _ _ hp =>
      rw [hp]
      rfl
  | pollEscape | stop | dlqEscape | notVerified | sleep | abandon | commit => cases ht

end LoopSteps

/-! ## Steps of the engine -/

section EngineSteps

variable {e : Deployment} {s : Engine}

/-- A step of the loop or the broker. -/
theorem Kept.loopStep (h : Kept e s) {l : LoopLabel DetectionMessage} {t : Loop DetectionMessage}
    (hl : l.ofHandler = false) (hstep : LoopStep e.codec e.settings s.loop l t) :
    Kept e { s with loop := t, judged := if l.startsAttempt then [] else s.judged } := by
  have hmono := producer_mono hstep
  have hsub : (if l.startsAttempt then [] else s.judged) ⊆ s.judged := by
    split
    · exact List.nil_subset _
    · exact fun _ hj => hj
  refine ⟨h.delivery.step hstep, fun htask => ?_, fun records hp hrel => ?_, fun todo result ht d hd => ?_,
    h.claimed, h.owned.transfer (fun k _ => .inl rfl) hmono (fun d hd => .inl hd), fun hlive => ?_⟩
  · obtain ⟨records, hp, hdec⟩ := h.busy htask
    exact ⟨records, (waiting_step hp hdec hl hstep).1.trans hp, hdec⟩
  · rcases handling_step hl hstep hp with hsw | ⟨hp', hsw⟩
    · exact hsw
    · exact hsw.trans (h.latch records hp' hrel)
  · obtain ⟨records, hp, hdec⟩ := h.busy (by rw [show s.task = _ from ht]; simp)
    refine (h.sent todo result ht d hd).imp id fun ⟨n, hn, hlog⟩ => ⟨n, ?_, getElem?_of_prefix hmono.1 hlog⟩
    exact (waiting_step hp hdec hl hstep).2.1 ▸ hn
  · cases hstart : l.startsAttempt with
    | true =>
        intro j hj
        simp at hj
    | false =>
        rw [hstart] at hsub
        exact (h.vouched (live_step hstart hstep hlive)).transfer hsub hmono fun d hd => .inl hd

/-- The handler ends. -/
theorem Kept.ended (h : Kept e s) {o : Outcome} {t : Loop DetectionMessage} {db : Db}
    (hstep : LoopStep e.codec e.settings s.loop (.handlerEnd o) t)
    (hown : Owned { s with loop := t, task := .idle, db := db })
    (hv : o.transient = false → Vouched { s with loop := t, task := .idle, db := db }) :
    Kept e { s with loop := t, task := .idle, db := db } := by
  have hphase : (o.transient = true ∧ t.phase.live = false) ∨
      o.transient = false ∧ ∀ records, t.phase ≠ .handling records := by
    cases hstep with
    | handlerEnd records _ hp hdec =>
        unfold Loop.finish
        split
        · rename_i ho
          exact .inl ⟨ho, rfl⟩
        · rename_i ho
          exact .inr ⟨Bool.eq_false_iff.mpr ho, by simp⟩
  refine ⟨h.delivery.step hstep, fun hidle => absurd rfl hidle, fun records hp => ?_, by simp, by simp, hown,
    fun hlive => ?_⟩
  · rcases hphase with ⟨-, hdead⟩ | ⟨-, hother⟩
    · rw [show t.phase = _ from hp] at hdead
      cases hdead
    · exact absurd hp (hother records)
  · rcases hphase with ⟨-, hdead⟩ | ⟨ho, -⟩
    · rw [show t.phase.live = true from hlive] at hdead
      cases hdead
    · exact hv ho

/-- The handler ends without having claimed anything. -/
theorem Kept.ended_unclaimed (h : Kept e s) {o : Outcome} {t : Loop DetectionMessage}
    (hheld : s.task.held = []) (hstep : LoopStep e.codec e.settings s.loop (.handlerEnd o) t)
    {db : Db} (hdb : ∀ k ∈ cooldownKeys, db k = s.db k) :
    Kept e { s with loop := t, task := .idle, db := db } := by
  have hmono := producer_mono hstep
  have hlive : s.loop.phase.live := by
    cases hstep with
    | handlerEnd records _ hp =>
        rw [hp]
        rfl
  exact h.ended hstep (h.owned.transfer (fun k hk => .inl (hdb k hk)) hmono (by simp [hheld]))
    fun _ => (h.vouched hlive).transfer (fun _ hj => hj) hmono (by simp [hheld])

/-- Phases A to C, whether or not they succeed. -/
theorem Kept.analysed (h : Kept e s) {records : List Record} (hp : s.loop.phase = .handling records)
    (hdec : decodedOf e.codec records ≠ []) (ht : s.task = .idle) {db : Db}
    (hdb : ∀ k ∈ cooldownKeys, db k = s.db k) (todo : List BlockedAudit) (out : Except PyError (List Item))
    (failures : List (ℕ × PyError)) : Kept e { s with db := db, task := .auditing todo out failures } := by
  have hmono : s.loop.producer.log <+: s.loop.producer.log ∧ s.loop.producer.acked ⊆ s.loop.producer.acked :=
    ⟨List.prefix_rfl, fun _ hn => hn⟩
  have hheld : s.task.held = [] := by rw [ht]; rfl
  exact ⟨h.delivery, fun _ => ⟨records, hp, hdec⟩, fun records' hp' _ => h.latch records' hp' (by simp [ht]),
    by simp, by simp, h.owned.transfer (fun k hk => .inl (hdb k hk)) hmono (by simp [hheld]),
    fun hlive => (h.vouched hlive).transfer (fun _ hj => hj) hmono (by simp [hheld])⟩

/-- The handler sends a message. -/
theorem Kept.sends (h : Kept e s) {m : DetectionMessage} {enqueued : Bool} {t : Loop DetectionMessage}
    (hstep : LoopStep e.codec e.settings s.loop (.handlerSend m enqueued) t) {task : Task}
    (hheld : task.held = s.task.held) (hrel : ∀ result, s.task ≠ .releasing result)
    (hrel' : ∀ result, task ≠ .releasing result)
    (hsent : ∀ todo result, task = .emitting todo result → ∃ todo', s.task = .emitting todo' result ∧
      ∀ d ∈ todo', d ∈ todo ∨ m = .detection d) : Kept e { s with loop := t, task := task } := by
  have hmono := producer_mono hstep
  have hdel := h.delivery.step hstep
  cases hstep with
  | handlerSend records _ _ hp hdec =>
      have hkeep : ∀ d ∈ s.task.held, d ∈ task.held ∨
          AckedDetection (s.loop.send (.fromHandler m) enqueued).producer d.detectionId :=
        fun d hd => .inl (hheld ▸ hd)
      refine ⟨hdel, fun _ => ⟨records, hp, hdec⟩, fun records' hp' _ => h.latch records' hp' hrel,
        fun todo result ht d hd => ?_, fun result hr => ?_, h.owned.transfer (fun _ _ => .inl rfl) hmono hkeep,
        fun hlive => (h.vouched hlive).transfer (fun _ hj => hj) hmono hkeep⟩
      · obtain ⟨todo', ht', htodo⟩ := hsent todo result ht
        rcases h.sent todo' result ht' d hd with hd | ⟨n, hn, hlog⟩
        · refine (htodo d hd).imp id ?_
          rintro rfl
          exact ⟨s.loop.producer.log.length, by simp [Loop.send], by simp [Loop.send, Producer.send]⟩
        · exact .inr ⟨n, List.mem_append_left _ hn, getElem?_of_prefix hmono.1 hlog⟩
      · rcases hr with ⟨todo, ht⟩ | ht
        · obtain ⟨todo', ht', -⟩ := hsent todo result ht
          exact h.claimed result (.inl ⟨todo', ht'⟩)
        · exact absurd ht (hrel' result)

/-- The claims. -/
theorem Kept.claims (h : Kept e s) (hcd : 0 < e.redis.detectionCooldownSeconds) {items : List Item}
    {failures : List (ℕ × PyError)} {emitted : List DetectionEvent} {claimed : List String} {db : Db}
    (ht : s.task = .auditing [] (.ok items) failures)
    (hc : filterCooledDown e.redis s.now (collectCandidates e.runtime items) s.db = ((emitted, claimed), db)) :
    Kept e { s with
      db := db
      task := .emitting emitted ⟨emitted, failures, claimed⟩
      judged := judge e.redis s.now (collectCandidates e.runtime items) s.db } := by
  set ds := collectCandidates e.runtime items with hds
  have heq := filterCooledDown_eq hcd s.now ds s.db
  rw [hc] at heq
  dsimp only at heq
  cases heq
  have hheld : s.task.held = [] := by rw [ht]; rfl
  have hown : Owned { s with
      db := (runAll (ds.map (cooldownClaim e.redis s.now)) s.db).2
      task := .emitting (cooldownWinners ds (runAll (ds.map (cooldownClaim e.redis s.now)) s.db).1)
        ⟨cooldownWinners ds (runAll (ds.map (cooldownClaim e.redis s.now)) s.db).1, failures,
          (cooldownWinners ds (runAll (ds.map (cooldownClaim e.redis s.now)) s.db).1).map cooldownKey⟩
      judged := judge e.redis s.now ds s.db } := by
    intro k hk hpresent
    rcases claims_key e.redis s.now ds s.db k with hsame | ⟨-, d, hd, hkey, hown⟩
    · obtain ⟨i, hi, hack | ⟨d, hd, -⟩⟩ := h.owned k hk (hsame ▸ hpresent)
      · exact ⟨i, (congrArg payload hsame).trans hi, .inl hack⟩
      · simp [hheld] at hd
    · exact ⟨d.detectionId, hown, .inr ⟨d, hd, hkey, rfl⟩⟩
  refine ⟨h.delivery, fun _ => h.busy (by simp [ht]), fun records hp _ => h.latch records hp (by simp [ht]), ?_, ?_,
    hown, fun _ j hj => ?_⟩
  · rintro todo result heq d hd
    cases heq
    exact .inl hd
  · rintro result (⟨todo, heq⟩ | heq)
    · cases heq
      rfl
    · cases heq
  · obtain ⟨⟨d, won⟩, hmem, rfl⟩ := List.mem_map.mp hj
    refine ⟨fun hwon => .inr ⟨d, ?_, rfl⟩, fun _ => ?_⟩
    · exact List.mem_map.mpr ⟨(d, won), List.mem_filter.mpr ⟨hmem, hwon⟩, rfl⟩
    · obtain ⟨i, hi, hrest⟩ := hown (cooldownKey d) (cooldownKey_mem d)
        (claims_held e.redis s.now ds s.db (List.of_mem_zip hmem).1)
      refine ⟨i, hi, hrest.imp id ?_⟩
      rintro ⟨d', hd', -, hid⟩
      exact ⟨d', hd', hid⟩

/-- A flush that returns confirms what was claimed. -/
theorem Kept.flushed (h : Kept e s) {result : BatchResult} {t : Loop DetectionMessage}
    (ht : s.task = .emitting [] result) (hstep : LoopStep e.codec e.settings s.loop (.handlerFlush false) t)
    (failures : List (ℕ × PyError)) : Kept e { s with loop := t, task := .returning failures } := by
  cases hstep with
  | handlerFlush records hp hdec hflush hlatch =>
      have hsw : s.loop.swallowed = false := h.latch records hp (by simp [ht])
      have hacked : ∀ d ∈ s.task.held, AckedDetection s.loop.producer d.detectionId := by
        intro d hd
        rw [ht] at hd
        rcases h.sent [] result ht d hd with hnil | ⟨n, hn, hlog⟩
        · cases hnil
        · rcases h.delivery.latched (by rw [hp]; rfl) n hn with hack | hfly | hset | hsw'
          · exact ⟨n, hack, d, hlog, rfl⟩
          · simp [hflush] at hfly
          · simp [hlatch] at hset
          · simp [hsw] at hsw'
      have hmono : s.loop.producer.log <+: s.loop.producer.log ∧
          s.loop.producer.acked ⊆ s.loop.producer.acked := ⟨List.prefix_rfl, fun _ hn => hn⟩
      exact ⟨h.delivery, fun _ => ⟨records, hp, hdec⟩, fun _ _ _ => hsw, by simp, by simp,
        h.owned.transfer (fun _ _ => .inl rfl) hmono fun d hd => .inr (hacked d hd),
        fun hlive => (h.vouched hlive).transfer (fun _ hj => hj) hmono fun d hd => .inr (hacked d hd)⟩

/-- A flush that raises leaves the claims to be released. -/
theorem Kept.flushRaised (h : Kept e s) {result : BatchResult} {t : Loop DetectionMessage}
    (ht : s.task = .emitting [] result) (hstep : LoopStep e.codec e.settings s.loop (.handlerFlush true) t) :
    Kept e { s with loop := t, task := .releasing result } := by
  have hmono := producer_mono hstep
  have hdel := h.delivery.step hstep
  have hheld : ∀ d ∈ s.task.held, d ∈ (Task.releasing result).held ∨
      AckedDetection t.producer d.detectionId := fun d hd => .inl (by rw [ht] at hd; exact hd)
  cases hstep with
  | handlerFlushRaised records hp hdec hflush hlatch =>
      refine ⟨hdel, fun _ => ⟨records, hp, hdec⟩, fun _ _ hrel => absurd rfl (hrel result), by simp,
        fun result' hr => ?_, h.owned.transfer (fun _ _ => .inl rfl) hmono hheld,
        fun hlive => (h.vouched hlive).transfer (fun _ hj => hj) hmono hheld⟩
      rcases hr with ⟨todo, heq⟩ | heq
      · cases heq
      · cases heq
        exact h.claimed result (.inl ⟨[], ht⟩)

/-- A release that was executed, with a transient exception after it. -/
theorem Kept.released (h : Kept e s) {result : BatchResult} {r : Raised} {t : Loop DetectionMessage}
    (ht : s.task = .releasing result) (hr : r.error.isTransient = true)
    (hstep : LoopStep e.codec e.settings s.loop (.handlerEnd (.raised r)) t) :
    Kept e { s with loop := t, task := .idle, db := (releaseCooldown result.claimedCooldownKeys s.db).2 } := by
  have hmono := producer_mono hstep
  refine h.ended hstep (fun k hk hpresent => ?_) fun htransient => ?_
  · simp only [releaseCooldown_apply, h.claimed result (.inr ht)] at hpresent ⊢
    split at hpresent
    · exact absurd rfl hpresent
    · rename_i hkept
      rw [if_neg hkept]
      obtain ⟨i, hi, hack | ⟨d, hd, hkey, -⟩⟩ := h.owned k hk hpresent
      · exact ⟨i, hi, .inl (hack.mono hmono.1 hmono.2)⟩
      · rw [ht] at hd
        exact absurd (List.mem_map.mpr ⟨d, hd, hkey⟩) hkept
  · rw [show (Outcome.raised r).transient = r.error.isTransient from rfl, hr] at htransient
    cases htransient

/-- A crash while everything that was claimed is acknowledged. -/
theorem Kept.crashed (h : Kept e s) (hheld : ∀ d ∈ s.task.held, AckedDetection s.loop.producer d.detectionId) :
    Kept e { s with loop := s.loop.restart, task := .idle, judged := [] } := by
  refine ⟨.of_nil rfl rfl, fun hidle => absurd rfl hidle, fun _ _ _ => rfl, by simp, by simp,
    h.owned.transfer (fun _ _ => .inl rfl) ⟨List.prefix_rfl, fun _ hn => hn⟩ fun d hd => .inr (hheld d hd),
    fun hlive => ?_⟩
  cases hlive

/-- Other clients and time. -/
theorem Kept.elsewhere (h : Kept e s) {db : Db} (now : ℕ)
    (hdb : ∀ k ∈ cooldownKeys, db k = s.db k ∨ db k = none) : Kept e { s with now := now, db := db } :=
  ⟨h.delivery, h.busy, h.latch, h.sent, h.claimed,
    h.owned.transfer hdb ⟨List.prefix_rfl, fun _ hn => hn⟩ fun _ hd => .inl hd, h.vouched⟩

end EngineSteps

/-! ## Runs -/

/-- No claim of an unacknowledged detection is left behind: not by a crash, not by a failed round trip of
the cooldown, and not by a failed release. -/
def Careful (e : Deployment) (s : Engine) : EngineLabel → Prop
  | .crash => ∀ d ∈ s.task.held, AckedDetection s.loop.producer d.detectionId
  | .claimFailed executed => ∀ items failures, s.task = .auditing [] (.ok items) failures →
      ∀ d ∈ (collectCandidates e.runtime items).take executed, s.db (cooldownKey d) ≠ none
  | .releaseFailed executed r => executed = true ∧ r.error.isTransient = true
  | _ => True

/-- A careful step. -/
def CarefulStep (e : Deployment) (s : Engine) (l : EngineLabel) (t : Engine) : Prop :=
  EngineStep e s l t ∧ Careful e s l

theorem Kept.step {e : Deployment} {s t : Engine} {l : EngineLabel} (hcd : 0 < e.redis.detectionCooldownSeconds)
    (h : Kept e s) (hl : CarefulStep e s l t) : Kept e t := by
  obtain ⟨hl, hcare⟩ := hl
  cases hl with
  | loop l t hl hstep => exact h.loopStep hl hstep
  | analyse records items failures hp hdec ht hv =>
      exact h.analysed hp hdec ht (fun k hk => analyse_cooldown _ _ _ _ _ hk) _ _ _
  | analyseFailed records items failures audits db hp hdec ht hv ha hdb =>
      exact h.analysed hp hdec ht hdb audits _ failures
  | audit a todo out failures enqueued t ht hstep =>
      exact h.sends hstep (by rw [ht]; rfl) (by simp [ht]) (by simp) (by simp)
  | raise r failures t ht hstep => exact h.ended_unclaimed (by rw [ht]; rfl) hstep fun _ _ => rfl
  | claim items failures emitted claimed db ht hc => exact h.claims hcd ht hc
  | claimFailed items failures executed r t ht hr hstep =>
      rw [claims_noop _ _ _ _ (hcare items failures ht)]
      exact h.ended_unclaimed (by rw [ht]; rfl) hstep fun _ _ => rfl
  | emit d todo result enqueued t ht hstep =>
      refine h.sends hstep (by rw [ht]; rfl) (by simp [ht]) (by simp) fun todo' result' heq => ?_
      cases heq
      refine ⟨d :: todo, ht, fun d' hd' => ?_⟩
      rcases List.mem_cons.mp hd' with rfl | hd'
      · exact .inr rfl
      · exact .inl hd'
  | flush result t ht hstep => exact h.flushed ht hstep _
  | flushRaised result t ht hstep => exact h.flushRaised ht hstep
  | returned failures f t ht hf hstep => exact h.ended_unclaimed (by rw [ht]; rfl) hstep fun _ _ => rfl
  | release result r t ht hr hstep => exact h.released ht (by rw [hr]; rfl) hstep
  | releaseFailed result executed r t ht hne hstep =>
      obtain ⟨rfl, hr⟩ := hcare
      exact h.released ht hr hstep
  | crash => exact h.crashed hcare
  | other db hdb => exact h.elsewhere s.now fun k hk => .inl (hdb k hk)
  | tick now hnow =>
      refine h.elsewhere now fun k _ => ?_
      rcases hp : purge now s.db k with _ | x
      · exact .inr rfl
      · exact .inl ((Option.filter_eq_some_iff.mp hp).1 ▸ rfl)

/-- Every candidate of an attempt is judged. -/
theorem judge_candidates (cfg : RedisConfig) (now : ℕ) (ds : List DetectionEvent) (db : Db) :
    (judge cfg now ds db).map (·.candidate) = ds := by
  simp only [judge, List.map_map, Function.comp_def]
  exact List.map_fst_zip (runAll_claims_length cfg now ds db).ge

/-- An engine that has just started, on a Redis whose cooldown keys are owned by acknowledged
detections. -/
structure Engine.Fresh (s : Engine) : Prop where
  loop : s.loop.Fresh
  task : s.task = .idle
  judged : s.judged = []
  owned : ∀ k ∈ cooldownKeys, s.db k ≠ none → ∃ i, payload (s.db k) = some (.text i) ∧
    AckedDetection s.loop.producer i

theorem Engine.Fresh.kept {s : Engine} (e : Deployment) (h : s.Fresh) : Kept e s where
  delivery := .of_nil h.loop.sent h.loop.swallowed
  busy hidle := absurd h.task hidle
  latch _ _ _ := h.loop.swallowed
  sent := by simp [h.task]
  claimed := by simp [h.task]
  owned k hk hpresent := by
    obtain ⟨i, hi, hack⟩ := h.owned k hk hpresent
    exact ⟨i, hi, .inl hack⟩
  vouched := by simp [Vouched, h.judged]

/-- In every run that leaves no claim of an unacknowledged detection behind: whenever offsets are
committed, every candidate of the attempt was acknowledged, or was suppressed by a cooldown key whose
owner was. -/
theorem cooldown_loses_nothing {e : Deployment} {s₀ s t : Engine} {ls : List EngineLabel}
    (hcd : 0 < e.redis.detectionCooldownSeconds) (h₀ : s₀.Fresh) (h : Run (CarefulStep e) s₀ ls s)
    {records : List Record} {offsets : String × ℕ → Option ℕ} {ok : Bool}
    (hc : EngineStep e s (.loop (.commit records offsets ok)) t) :
    ∀ j ∈ s.judged, (j.won = true ∧ AckedDetection s.loop.producer j.candidate.detectionId) ∨
      j.won = false ∧ ∃ i, j.owner = some (.text i) ∧ AckedDetection s.loop.producer i := by
  have hkept : Kept e s := h.invariant (h₀.kept e) fun _ _ _ hI hstep => hI.step hcd hstep
  have hp : s.loop.phase = .committing records := by
    cases hc with
    | loop l t hl hstep =>
        cases hstep with
        | commit _ _ hp => exact hp
  have hidle : s.task.held = [] := by
    have htask : s.task = .idle := not_not.mp fun hbusy => by
      obtain ⟨records', hp', -⟩ := hkept.busy hbusy
      rw [hp] at hp'
      cases hp'
    rw [htask]
    rfl
  have hacked : ∀ i, Answerable s i → AckedDetection s.loop.producer i := by
    rintro i (hack | ⟨d, hd, -⟩)
    · exact hack
    · simp [hidle] at hd
  intro j hj
  obtain ⟨hwon, hlost⟩ := hkept.vouched (by rw [hp]; rfl) j hj
  cases hw : j.won with
  | true => exact .inl ⟨rfl, hacked _ (hwon hw)⟩
  | false =>
      obtain ⟨i, hi, hans⟩ := hlost hw
      exact .inr ⟨rfl, i, hi, hacked i hans⟩

/-! ## Sample runs -/

namespace Sample

/-- An engine that reports every transaction as a burst. -/
def deployment : Deployment where
  codec := ⟨fun _ => .value (value "e1"), fun _ => ""⟩
  settings := { stage := "detection" }
  runtime := runtime
  kafka := {}
  redis := { burstThreshold := 0 }

/-- The record of `e1` as it is polled. -/
def polled : Record := ⟨"tx-events", 0, 0, none, some [123]⟩

/-- Its item. -/
def item : Item := { event := .tx (tx "e1"), ref := (record 0 "e1").ref }

/-- The engine before its first poll, on an empty Redis. -/
def engine : Engine :=
  ⟨⟨.polling, false, 0, ⟨[], [], [], false⟩, [], none, false, {}, []⟩, .idle, [], 0, fun _ => none⟩

/-- The items that phases A to C leave. -/
def found (db : Db) : List Item :=
  match (analyse runtime deployment.redis 0 [item] db).1.2 with
  | .ok items => items
  | .error _ => []

/-- The keyspace they leave. -/
def left (db : Db) : Db := (analyse runtime deployment.redis 0 [item] db).2

/-- The claims of an attempt. -/
def claims (db : Db) : (List DetectionEvent × List String) × Db :=
  filterCooledDown deployment.redis 0 (collectCandidates runtime (found db)) (left db)

/-- Phases A to C succeed and refuse nothing. -/
def Succeeds (db : Db) : Bool :=
  (analyse runtime deployment.redis 0 [item] db).1.1.isEmpty &&
    (analyse runtime deployment.redis 0 [item] db).1.2.toOption.isSome

theorem analyse_found {db : Db} (h : Succeeds db = true) :
    (analyse runtime deployment.redis 0 [item] db).1.1 = [] ∧
      (analyse runtime deployment.redis 0 [item] db).1.2 = .ok (found db) := by
  simp only [Succeeds, Bool.and_eq_true, List.isEmpty_iff] at h
  refine ⟨h.1, ?_⟩
  unfold found
  cases hout : (analyse runtime deployment.redis 0 [item] db).1.2 with
  | error e => simp [hout, Except.toOption] at h
  | ok items => rfl

/-- Poll the record. -/
theorem polls {s : Engine} (hp : s.loop.phase = .polling) (hs : s.loop.shutdown = false)
    (hnone : s.loop.polled = []) :
    ∃ t, CarefulStep deployment s (.loop (.poll [polled])) t ∧ t.loop.phase = .handling [polled] ∧
      t.loop.sent = [] ∧ t.loop.producer = s.loop.producer.clear ∧ t.judged = [] ∧ t.task = s.task ∧
      t.now = s.now ∧ t.db = s.db := by
  refine ⟨_, ⟨.loop _ _ rfl (.poll [polled] hp hs (by simp) ?_ ?_ (.inl ?_)), trivial⟩, rfl, rfl, rfl, rfl, rfl,
    rfl, rfl⟩
  · simp [hnone, Ascending]
  · simp [Escapes, decodeJson, polled, deployment, value]
  · simp [decodedOf, decodeJson, polled, deployment, value]

theorem decodedOf_polled : decodedOf deployment.codec [polled] ≠ [] := by
  simp [decodedOf, decodeJson, polled, deployment, value]

/-- The handler up to its claims. -/
theorem attempts {s : Engine} (hp : s.loop.phase = .handling [polled]) (ht : s.task = .idle) (hnow : s.now = 0)
    (hok : Succeeds s.db = true) :
    Run (CarefulStep deployment) s [.analyse, .claim]
      { s with
        db := (claims s.db).2
        task := .emitting (claims s.db).1.1 ⟨(claims s.db).1.1, [], (claims s.db).1.2⟩
        judged := judge deployment.redis 0 (collectCandidates runtime (found s.db)) (left s.db) } := by
  obtain ⟨haudits, hout⟩ := analyse_found hok
  obtain ⟨loop, task, judged, now, db⟩ := s
  obtain rfl : now = 0 := hnow
  refine .cons ⟨.analyse [polled] [item] [] hp decodedOf_polled ht (validateRecords_tx (record 0 "e1")), trivial⟩
    (.single ⟨.claim (found db) [] _ _ _ ?_ rfl, trivial⟩)
  exact congrArg₂ (fun a o => Task.auditing a o []) haudits hout

/-- The handler and the loop after a delivery without failures. -/
theorem confirms {s : Engine} {result : BatchResult} (hp : s.loop.phase = .handling [polled])
    (ht : s.task = .emitting [] result) (hf : result.failures = []) (hfly : s.loop.producer.inflight = [])
    (hlatch : s.loop.producer.latch = false) :
    ∃ ls t, Run (CarefulStep deployment) s ls t ∧ t.loop.phase = .committing [polled] ∧ t.judged = s.judged ∧
      t.loop.producer = s.loop.producer := by
  have hnone : dlqOf deployment.codec [polled] (.returned fun _ => none) = [] := by
    simp [dlqOf, undecodableOf, decodeJson, polled, deployment, value]
  refine ⟨_, _, .cons ⟨.flush result _ ht (.handlerFlush [polled] hp decodedOf_polled hfly hlatch), trivial⟩
    (.cons ⟨.returned [] (fun _ => none) _ (by rw [hf]) (by simp) (.handlerEnd [polled] _ hp decodedOf_polled), trivial⟩
    (.cons ⟨.loop .sentToDlq _ rfl (.sentToDlq [polled] ?_), trivial⟩
    (.single ⟨.loop (.flushAndVerify false) _ rfl (.verified [polled] (.returned fun _ => none) rfl rfl ?_ ?_),
      trivial⟩))), rfl, rfl, rfl⟩
  · simp [Loop.finish, Outcome.transient, hnone]
  · exact hfly
  · exact hlatch

theorem succeeds_empty : Succeeds engine.db = true := by decide +kernel

theorem claims_empty : (claims engine.db).1.1.length = 1 := by decide +kernel

/-- The second attempt, after the claims of the first. -/
theorem succeeds_claimed : Succeeds (claims engine.db).2 = true := by decide +kernel

theorem claims_claimed : (claims (claims engine.db).2).1.1.length = 0 := by decide +kernel

theorem candidates_claimed : (collectCandidates runtime (found (claims engine.db).2)).length = 1 := by
  decide +kernel

theorem judged_empty :
    (judge deployment.redis 0 (collectCandidates runtime (found engine.db)) (left engine.db)).length = 1 := by
  decide +kernel

theorem engine_fresh : engine.Fresh := ⟨⟨rfl, rfl, rfl, rfl⟩, rfl, rfl, fun _ _ h => absurd rfl h⟩

end Sample

section

open Sample

/-- A detection that is claimed, sent, acknowledged and committed. -/
theorem cooldown_loses_nothing_delivered :
    ∃ ls s t, Run (CarefulStep deployment) engine ls s ∧
      EngineStep deployment s (.loop (.commit [polled] (commitOffsets [polled]) true)) t ∧
      s.judged.length = 1 ∧ ∀ j ∈ s.judged,
        (j.won = true ∧ AckedDetection s.loop.producer j.candidate.detectionId) ∨
          j.won = false ∧ ∃ i, j.owner = some (.text i) ∧ AckedDetection s.loop.producer i := by
  obtain ⟨s₁, hpoll, hp, hsent, hprod, hj, ht, hnow, hdb⟩ := polls (s := engine) rfl rfl rfl
  have hatt := attempts hp ht hnow (hdb ▸ succeeds_empty)
  obtain ⟨d, hd⟩ := List.length_eq_one_iff.mp claims_empty
  rw [hdb, hd] at hatt
  have hlog : s₁.loop.producer.log = [] := by rw [hprod]; rfl
  have hfly : s₁.loop.producer.inflight = [] := by rw [hprod]; rfl
  have hlatch : s₁.loop.producer.latch = false := by rw [hprod]; rfl
  obtain ⟨ls, s, hrest, hcommit, hjudged, -⟩ := confirms (s := { s₁ with
      db := (claims engine.db).2
      task := .emitting [] ⟨[d], [], (claims engine.db).1.2⟩
      judged := judge deployment.redis 0 (collectCandidates runtime (found engine.db)) (left engine.db)
      loop := { s₁.loop.send (.fromHandler (.detection d)) true with
        producer := (s₁.loop.producer.send (.fromHandler (.detection d)) true).ack 0 } }) hp rfl rfl
    (by simp [Producer.ack, Producer.send, hlog, hfly]) (by simp [Producer.ack, Producer.send, hlatch])
  have hrun := (Run.cons hpoll hatt).append (.cons
    ⟨.emit d [] _ true _ rfl (.handlerSend [polled] _ true hp decodedOf_polled), trivial⟩ (.cons
    ⟨.loop (.ack 0) _ rfl (.ack 0 (by simp [Loop.send, Producer.send, hlog])), trivial⟩ hrest))
  have hstep : EngineStep deployment s (.loop (.commit [polled] (commitOffsets [polled]) true)) _ :=
    .loop _ _ rfl (.commit [polled] true hcommit)
  refine ⟨_, s, _, hrun, hstep, ?_, cooldown_loses_nothing (by decide) engine_fresh hrun hstep⟩
  rw [hjudged]
  exact judged_empty

/-- The process dies between the claim and the delivery. The record is delivered again, its detection is
suppressed by its own orphaned claim, and the offset is committed; the detection is never acknowledged. -/
theorem detection_lost_after_crash :
    ∃ ls s t, Run (EngineStep deployment) engine ls s ∧
      EngineStep deployment s (.loop (.commit [polled] (commitOffsets [polled]) true)) t ∧
      ∃ j ∈ s.judged, ¬ ((j.won = true ∧ AckedDetection s.loop.producer j.candidate.detectionId) ∨
        j.won = false ∧ ∃ i, j.owner = some (.text i) ∧ AckedDetection s.loop.producer i) := by
  obtain ⟨s₁, hpoll, hp, -, hprod, -, ht, hnow, hdb⟩ := polls (s := engine) rfl rfl rfl
  have hatt := attempts hp ht hnow (hdb ▸ succeeds_empty)
  obtain ⟨s₂, hpoll', hp', -, hprod', -, ht', hnow', hdb'⟩ := polls (s := { s₁ with
    loop := s₁.loop.restart, task := .idle, judged := [], db := (claims s₁.db).2 }) rfl rfl rfl
  have hdb₂ : s₂.db = (claims engine.db).2 := by rw [hdb', hdb]
  have hatt' := attempts hp' ht' (hnow'.trans hnow) (hdb₂ ▸ succeeds_claimed)
  rw [hdb₂, List.length_eq_zero_iff.mp claims_claimed] at hatt'
  have hacked : s₂.loop.producer.acked = [] := by
    rw [hprod']
    exact congrArg Producer.acked hprod
  obtain ⟨ls, s, hrest, hcommit, hjudged, hprods⟩ := confirms (s := { s₂ with
      db := (claims (claims engine.db).2).2
      task := .emitting [] ⟨[], [], (claims (claims engine.db).2).1.2⟩
      judged := judge deployment.redis 0 (collectCandidates runtime (found (claims engine.db).2))
        (left (claims engine.db).2) }) hp' rfl rfl (by rw [hprod']; rfl) (by rw [hprod']; rfl)
  have hrun := ((Run.cons hpoll hatt).mono fun _ _ _ h => h.1).append (.cons .crash
    (((Run.cons hpoll' hatt').append hrest).mono fun _ _ _ h => h.1))
  obtain ⟨d, hd⟩ := List.length_eq_one_iff.mp candidates_claimed
  have hmem : d ∈ s.judged.map (·.candidate) := by
    rw [hjudged, judge_candidates, hd]
    exact List.mem_cons_self
  obtain ⟨j, hj, -⟩ := List.mem_map.mp hmem
  have hnone : ∀ i, ¬ AckedDetection s.loop.producer i := by
    rintro i ⟨n, hn, -⟩
    rw [hprods, hacked] at hn
    cases hn
  refine ⟨_, s, _, hrun, .loop _ _ rfl (.commit [polled] true hcommit), j, hj, ?_⟩
  rintro (⟨-, hack⟩ | ⟨-, i, -, hack⟩)
  · exact hnone _ hack
  · exact hnone i hack

end

end Rtace
