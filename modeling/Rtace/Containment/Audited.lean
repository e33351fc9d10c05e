import Rtace.Containment.InOrder

/-!
# Nothing is committed without its audit record

The handler of the containment engine does not flush; delivery is confirmed by the loop alone. So what the
stored offset has passed is skipped, dead-lettered, or contained and audited, with the broker's
acknowledgement in hand, and the audit log has nothing but what calls returned. This holds for every
run, also when receipts expire and calls fail for good.
-/

namespace Rtace.Containment

open Lib Redis

/-- The record has an answer that the broker has acknowledged, or needs none. -/
inductive Settled (e : Setup) (ls : List WorkLabel) (p : Producer AuditRecord) (r : Record) : Prop
  | skipped (h : decodeJson e.codec r.value = .ok none)
  | deadLettered (n : ℕ) (x : DeadLetter) (hn : n ∈ p.acked) (hx : p.log[n]? = some (.deadLetter x))
      (htopic : x.sourceTopic = r.topic) (hpartition : x.partition = r.partition) (hoffset : x.offset = r.offset)
  | audited (n : ℕ) (d : DetectionEvent) (wrote : Bool) (actions : List ActionKind)
      (hd : e.detectionOf r = some d) (hcall : .call r d wrote (.returned actions) ∈ ls) (hn : n ∈ p.acked)
      (ha : p.log[n]? = some (.fromHandler (auditRecord d actions)))

/-- The audit record of `r` was sent in the current attempt. -/
def AuditSent (e : Setup) (ls : List WorkLabel) (s : Loop AuditRecord) (r : Record) : Prop :=
  ∃ n ∈ s.sent, ∃ d wrote actions, e.detectionOf r = some d ∧ .call r d wrote (.returned actions) ∈ ls ∧
    s.producer.log[n]? = some (.fromHandler (auditRecord d actions))

/-- The failures the handler has collected, and how many records they are about. -/
def Progress.collected : Progress → ℕ × (ℕ → Option Raised)
  | .idle => (0, fun _ => none)
  | .working next failures | .auditing next failures _ _ => (next, failures)

/-- Records without a failure have had their audit record sent, among the first `n` of a batch. -/
def Reported (e : Setup) (ls : List WorkLabel) (s : Loop AuditRecord) (records : List Record) (n : ℕ)
    (failures : ℕ → Option Raised) : Prop :=
  ∀ j < n, ∀ r v, (decodedOf e.codec records)[j]? = some (r, v) → failures j = none → AuditSent e ls s r

structure Audited (e : Setup) (ls : List WorkLabel) (s : Worker) : Prop where
  covered : Covered e.topics (Settled e ls s.consumer.loop.producer) s.consumer
  engaged : s.Engaged e
  delivery : Delivery s.consumer.loop
  answered : Answered e.codec s.consumer.loop
  unswallowed : s.consumer.loop.swallowed = false
  /-- The audit log has nothing but what calls returned. -/
  sound : ∀ a, .fromHandler a ∈ s.consumer.loop.producer.log → ∃ r d wrote actions, a = auditRecord d actions ∧
    r ∈ e.topics.log r.topicPartition ∧ e.detectionOf r = some d ∧ .call r d wrote (.returned actions) ∈ ls
  reported : ∀ records, s.phase = .handling records →
    Reported e ls s.consumer.loop records s.progress.collected.1 s.progress.collected.2
  auditing : ∀ i failures d actions, s.progress = .auditing i failures d actions → ∃ records r v wrote,
    s.phase = .handling records ∧ (decodedOf e.codec records)[i]? = some (r, v) ∧
      e.detectionOf r = some d ∧ .call r d wrote (.returned actions) ∈ ls
  finished : ∀ records, handledBatch s.phase = some records → decodedOf e.codec records = [] ∨
    ∃ failures, s.consumer.loop.outcome = some (.returned failures) ∧
      Reported e ls s.consumer.loop records (decodedOf e.codec records).length failures

section

variable {e : Setup} {ls ls' : List WorkLabel} {s t : Worker} {l : WorkLabel}

theorem Settled.mono {p q : Producer AuditRecord} {r : Record} (h : Settled e ls p r) (hls : ls ⊆ ls')
    (hlog : p.log <+: q.log) (hacked : p.acked ⊆ q.acked) : Settled e ls' q r := by
  cases h with
  | skipped h => exact .skipped h
  | deadLettered n x hn hx htopic hpartition hoffset =>
      exact .deadLettered n x (hacked hn) ( getElem?_of_prefix hlog hx) htopic hpartition hoffset
  | audited n d wrote actions hd hcall hn ha =>
      exact .audited n d wrote actions hd (hls hcall) (hacked hn) ( getElem?_of_prefix hlog ha)

theorem AuditSent.mono {a b : Loop AuditRecord} {r : Record} (h : AuditSent e ls a r) (hls : ls ⊆ ls')
    (hsent : a.sent ⊆ b.sent) (hlog : a.producer.log <+: b.producer.log) : AuditSent e ls' b r := by
  obtain ⟨n, hn, d, wrote, actions, hd, hcall, ha⟩ := h
  exact ⟨n, hsent hn, d, wrote, actions, hd, hls hcall, getElem?_of_prefix hlog ha⟩

theorem Reported.mono {a b : Loop AuditRecord} {records : List Record} {n : ℕ} {failures : ℕ → Option Raised}
    (h : Reported e ls a records n failures) (hls : ls ⊆ ls') (hsent : a.sent ⊆ b.sent)
    (hlog : a.producer.log <+: b.producer.log) : Reported e ls' b records n failures :=
  fun j hj r v hr hnone => (h j hj r v hr hnone).mono hls hsent hlog

/-- One more record, with a failure. -/
theorem Reported.fails {a : Loop AuditRecord} {records : List Record} {n : ℕ} {failures : ℕ → Option Raised}
    (h : Reported e ls a records n failures) (x : Raised) :
    Reported e ls a records (n + 1) (Function.update failures n (some x)) := by
  intro j hj r v hr hnone
  rcases Nat.lt_succ_iff_lt_or_eq.mp hj with hlt | rfl
  · rw [Function.update_of_ne hlt.ne] at hnone
    exact h j hlt r v hr hnone
  · rw [Function.update_self] at hnone
    cases hnone

/-- One more record, with its audit record. -/
theorem Reported.sends {a : Loop AuditRecord} {records : List Record} {n : ℕ} {failures : ℕ → Option Raised}
    (h : Reported e ls a records n failures) {r : Record} {v : Json}
    (hr : (decodedOf e.codec records)[n]? = some (r, v)) (hsent : AuditSent e ls a r) :
    Reported e ls a records (n + 1) failures := by
  intro j hj r' v' hr' hnone
  rcases Nat.lt_succ_iff_lt_or_eq.mp hj with hlt | rfl
  · exact h j hlt r' v' hr' hnone
  · rw [hr] at hr'
    cases hr'
    exact hsent

/-- At the gate every record of the batch is settled. -/
theorem Audited.settled (h : Audited e ls s) {records : List Record} (hp : s.phase = .committing records)
    {r : Record} (hr : r ∈ records) : Settled e ls s.consumer.loop.producer r := by
  obtain ⟨hund, hdec⟩ := h.answered.records hp
  have hacked := h.delivery.gate records hp h.unswallowed
  have hdead : DeadLettered s.consumer.loop r → Settled e ls s.consumer.loop.producer r := by
    rintro ⟨n, hn, x, hx, htopic, hpartition, hoffset⟩
    exact .deadLettered n x (hacked n hn) hx htopic hpartition hoffset
  cases hv : decodeJson e.codec r.value with
  | error x => exact hdead (hund r hr x hv)
  | ok v =>
      cases v with
      | none => exact .skipped hv
      | some v =>
          have hmem : (r, v) ∈ decodedOf e.codec records := List.mem_filterMap.mpr ⟨r, hr, by simp only [hv]⟩
          obtain ⟨i, hi⟩ := List.mem_iff_getElem?.mp hmem
          rcases hdec i r v hi with ⟨failures, hout, hnone⟩ | hletter
          · rcases h.finished records (by rw [hp]; rfl) with hnil | ⟨failures', hout', hreported⟩
            · rw [hnil] at hmem
              cases hmem
            · rw [hout'] at hout
              cases hout
              obtain ⟨n, hn, d, wrote, actions, hd, hcall, ha⟩ :=
                hreported i (List.getElem?_eq_some_iff.mp hi).1 r v hi hnone
              exact .audited n d wrote actions hd hcall (hacked n hn) ha
          · exact hdead hletter

/-! ## Steps of the loop -/

section

variable {c : Codec} {settings : LoopSettings} {a b : Loop AuditRecord} {l : LoopLabel AuditRecord}

theorem swallowed_step (h : LoopStep c settings a l b) (hl : ∀ raised, l ≠ .handlerFlush raised)
    (hs : a.swallowed = false) : b.swallowed = false := by
  cases h with
  | handlerFlush | handlerFlushRaised => exact absurd rfl (hl _)
  | poll | pollSkipped | retry => rfl
  | handlerEnd records o =>
      unfold Loop.finish
      split <;> exact hs
  | _ => exact hs

/-- A message of the handler is in the log because the handler sent it. -/
theorem fromHandler_step (h : LoopStep c settings a l b) {m : AuditRecord}
    (hm : .fromHandler m ∈ b.producer.log) :
    .fromHandler m ∈ a.producer.log ∨ ∃ enqueued, l = .handlerSend m enqueued := by
  cases h with
  | handlerSend records m' enqueued =>
      rcases List.mem_append.mp hm with hold | hnew
      · exact .inl hold
      · cases List.mem_singleton.mp hnew
        exact .inr ⟨enqueued, rfl⟩
  | sendToDlq =>
      rcases List.mem_append.mp hm with hold | hnew
      · exact .inl hold
      · cases List.mem_singleton.mp hnew
  | handlerEnd records o =>
      refine .inl ?_
      unfold Loop.finish at hm
      split at hm <;> exact hm
  | _ => exact .inl hm

/-- After the handler has returned, its outcome stands and its sends stay among those of the attempt. -/
theorem handledBatch_kept (hl : l.ofHandler = false) (h : LoopStep c settings a l b) {records : List Record}
    (hb : handledBatch b.phase = some records) : decodedOf c records = [] ∨
      handledBatch a.phase = some records ∧ b.outcome = a.outcome ∧ a.sent ⊆ b.sent := by
  rcases handledBatch_step hl h hb with ha | hnil
  · refine .inr ⟨ha, ?_⟩
    cases h with
    | poll _ hp | pollSkipped _ hp | pollEscape _ hp | noHandler _ hp | retry _ hp =>
        rw [hp] at ha
        cases ha
    | handlerSend | handlerFlush | handlerFlushRaised | handlerEnd => cases hl
    | sendToDlq => exact ⟨rfl, List.subset_append_left ..⟩
    | _ => exact ⟨rfl, fun _ hn => hn⟩
  · exact .inl hnil

end

/-! ## Steps of the engine -/

/-- A step that leaves the consumer alone. -/
theorem Audited.quiet (h : Audited e ls s) (hconsumer : t.consumer = s.consumer) (hengaged : t.Engaged e)
    (hreported : ∀ records, s.phase = .handling records →
      Reported e (ls ++ [l]) s.consumer.loop records t.progress.collected.1 t.progress.collected.2)
    (hauditing : ∀ i failures d actions, t.progress = .auditing i failures d actions → ∃ records r v wrote,
      s.phase = .handling records ∧ (decodedOf e.codec records)[i]? = some (r, v) ∧
        e.detectionOf r = some d ∧ .call r d wrote (.returned actions) ∈ ls ++ [l]) :
    Audited e (ls ++ [l]) t := by
  have hls : ls ⊆ ls ++ [l] := List.subset_append_left ..
  refine ⟨?_, hengaged, ?_, ?_, ?_, fun a ha => ?_, fun records hp => ?_, fun i failures d actions hg => ?_,
    fun records hp => ?_⟩
  · rw [hconsumer]
    exact h.covered.mono fun r hr => hr.mono hls List.prefix_rfl fun _ hn => hn
  · rw [hconsumer]
    exact h.delivery
  · rw [hconsumer]
    exact h.answered
  · rw [hconsumer]
    exact h.unswallowed
  · rw [hconsumer] at ha
    obtain ⟨r, d, wrote, actions, heq, hr, hd, hcall⟩ := h.sound a ha
    exact ⟨r, d, wrote, actions, heq, hr, hd, hls hcall⟩
  · rw [Worker.phase, hconsumer] at hp
    rw [hconsumer]
    exact hreported records hp
  · rw [Worker.phase, hconsumer]
    exact hauditing i failures d actions hg
  · rw [Worker.phase, hconsumer] at hp
    rw [hconsumer]
    refine (h.finished records hp).imp id ?_
    rintro ⟨failures, hout, hrep⟩
    exact ⟨failures, hout, hrep.mono hls (fun _ hn => hn) List.prefix_rfl⟩

/-- A step of the loop, seen from the producer. -/
theorem Audited.loop (h : Audited e ls s) {l' : LoopLabel AuditRecord} (hstep : ConsumerStep e.codec e.settings e.topics s.consumer (some l') t.consumer)
    (hflush : ∀ raised, l' ≠ .handlerFlush raised) (hengaged : t.Engaged e)
    (hsend : ∀ a enqueued, l' = .handlerSend a enqueued → ∃ r d wrote actions, a = auditRecord d actions ∧
      r ∈ e.topics.log r.topicPartition ∧ e.detectionOf r = some d ∧ .call r d wrote (.returned actions) ∈ ls)
    (hreported : ∀ records, t.phase = .handling records →
      Reported e (ls ++ [l]) t.consumer.loop records t.progress.collected.1 t.progress.collected.2)
    (hauditing : ∀ i failures d actions, t.progress = .auditing i failures d actions → ∃ records r v wrote,
      t.phase = .handling records ∧ (decodedOf e.codec records)[i]? = some (r, v) ∧
        e.detectionOf r = some d ∧ .call r d wrote (.returned actions) ∈ ls ++ [l])
    (hfinished : ∀ records, handledBatch t.phase = some records → decodedOf e.codec records = [] ∨
      ∃ failures, t.consumer.loop.outcome = some (.returned failures) ∧
        Reported e (ls ++ [l]) t.consumer.loop records (decodedOf e.codec records).length failures) :
    Audited e (ls ++ [l]) t := by
  have hls : ls ⊆ ls ++ [l] := List.subset_append_left ..
  obtain ⟨hlog, hacked⟩ := producer_mono hstep.loopStep
  refine ⟨?_, hengaged, h.delivery.step hstep.loopStep, h.answered.step hstep.loopStep,
    swallowed_step hstep.loopStep hflush h.unswallowed, fun a ha => ?_, hreported, hauditing, hfinished⟩
  · refine h.covered.step hstep (fun r hr => hr.mono hls hlog hacked) fun records offsets ok hl r hr => ?_
    cases hl
    exact (h.settled hstep.loopStep.commit_spec.1 hr).mono hls hlog hacked
  · rcases fromHandler_step hstep.loopStep ha with hold | ⟨enqueued, hnew⟩
    · obtain ⟨r, d, wrote, actions, heq, hr, hd, hcall⟩ := h.sound a hold
      exact ⟨r, d, wrote, actions, heq, hr, hd, hls hcall⟩
    · obtain ⟨r, d, wrote, actions, heq, hr, hd, hcall⟩ := hsend a enqueued hnew
      exact ⟨r, d, wrote, actions, heq, hr, hd, hls hcall⟩

/-- The next process. -/
theorem Audited.relaunch (h : Audited e ls s) :
    Audited e (ls ++ [l])
      { s with
        consumer := { s.consumer with loop := s.consumer.loop.relaunch, position := s.consumer.committed }
        progress := .idle } where
  covered := h.covered.relaunch fun r hr =>
    hr.mono (List.subset_append_left ..) List.prefix_rfl fun _ hn => hn
  engaged hg := absurd rfl hg
  delivery := .of_nil rfl rfl
  answered := trivial
  unswallowed := rfl
  sound a ha := by
    obtain ⟨r, d, wrote, actions, heq, hr, hd, hcall⟩ := h.sound a ha
    exact ⟨r, d, wrote, actions, heq, hr, hd, List.mem_append_left _ hcall⟩
  reported records hp := by cases hp
  auditing i failures d actions hg := by cases hg
  finished records hp := by cases hp

/-- The loop and the broker beside the handler. -/
theorem Audited.beside (h : Audited e ls s) {l : LoopLabel AuditRecord} {t : Consumer AuditRecord}
    (hl : l.ofHandler = false) (hstep : ConsumerStep e.codec e.settings e.topics s.consumer (some l) t) :
    Audited e (ls ++ [.consumer (some l)]) { s with consumer := t } := by
  have hls : ls ⊆ ls ++ [.consumer (some l)] := List.subset_append_left ..
  obtain ⟨hlog, -⟩ := producer_mono hstep.loopStep
  -- while the handler is at work the attempt stays the same
  have hwaiting : s.progress ≠ .idle → t.loop.phase = s.phase ∧ t.loop.sent = s.consumer.loop.sent := by
    intro hg
    obtain ⟨records, hp, hdec⟩ := h.engaged hg
    obtain ⟨hphase, hsent, -⟩ := waiting_step hp hdec hl hstep.loopStep
    exact ⟨hphase, hsent⟩
  refine h.loop hstep (fun raised hflush => ?_) (h.engaged.step (.consumer (some l) t hl hstep))
    (fun a enqueued hsend => ?_) (fun records hp => ?_) (fun i failures d actions hg => ?_) fun records hp => ?_
  · rw [hflush] at hl
    cases hl
  · rw [hsend] at hl
    cases hl
  · by_cases hg : s.progress = .idle
    · intro j hj
      rw [show Progress.collected _ = _ from congrArg Progress.collected hg] at hj
      exact absurd hj (Nat.not_lt_zero j)
    · obtain ⟨hphase, hsent⟩ := hwaiting hg
      exact (h.reported records (hphase.symm.trans hp)).mono hls (by rw [hsent]; exact fun _ hn => hn) hlog
  · obtain ⟨records, r, v, wrote, hp, hi, hd, hcall⟩ := h.auditing i failures d actions hg
    have hphase := (hwaiting (by rw [show s.progress = _ from hg]; simp)).1
    exact ⟨records, r, v, wrote, hphase.trans hp, hi, hd, hls hcall⟩
  · rcases handledBatch_kept hl hstep.loopStep hp with hnil | ⟨hold, hout, hsent⟩
    · exact .inl hnil
    · refine (h.finished records hold).imp id ?_
      rintro ⟨failures, hout', hrep⟩
      exact ⟨failures, hout.trans hout', hrep.mono hls hsent hlog⟩

/-- The audit record of the record the handler is at is sent. -/
theorem Audited.sends (h : Audited e ls s) {i : ℕ} {failures : ℕ → Option Raised} {d : DetectionEvent}
    {actions : List ActionKind} {enqueued : Bool} {t : Loop AuditRecord}
    (hg : s.progress = .auditing i failures d actions)
    (hloop : LoopStep e.codec e.settings s.consumer.loop (.handlerSend (auditRecord d actions) enqueued) t) :
    Audited e (ls ++ [.consumer (some (.handlerSend (auditRecord d actions) enqueued))])
      (s.goto t (.working (i + 1) failures)) := by
  obtain ⟨records, r, v, wrote, hp, hi, hd, hcall⟩ := h.auditing i failures d actions hg
  have hls : ls ⊆ ls ++ [.consumer (some (.handlerSend (auditRecord d actions) enqueued))] :=
    List.subset_append_left ..
  have hlog : r ∈ e.topics.log r.topicPartition := by
    refine ((h.covered.fetched records ?_).2 r (of_mem_decodedOf (List.mem_of_getElem? hi)).1).1
    rw [show s.consumer.loop.phase = _ from hp]
    exact List.mem_singleton.mpr rfl
  have hengaged := h.engaged.step (.audit i failures d actions enqueued t hg hloop)
  have hsent : t = s.consumer.loop.send (.fromHandler (auditRecord d actions)) enqueued := by
    cases hloop with
    | handlerSend => rfl
  have hphase : t.phase = .handling records := by
    rw [hsent]
    exact hp
  refine h.loop (.within _ t rfl rfl hloop) (by simp) hengaged (fun a enqueued' hsend => ?_) (fun records' hp' => ?_)
    (fun i' failures' d' actions' hg' => by cases hg') fun records' hp' => ?_
  · cases hsend
    exact ⟨r, d, wrote, actions, rfl, hlog, hd, hcall⟩
  · obtain rfl : records = records' := by
      rw [show t.phase = _ from hp'] at hphase
      cases hphase
      rfl
    have hold := h.reported records hp
    rw [hg] at hold
    refine (hold.mono hls ?_ ?_).sends hi ?_
    · rw [show (s.goto t _).consumer.loop = t from rfl, hsent]
      exact List.subset_append_left ..
    · rw [show (s.goto t _).consumer.loop = t from rfl, hsent]
      exact List.prefix_append ..
    · rw [show (s.goto t _).consumer.loop = t from rfl, hsent]
      exact ⟨s.consumer.loop.producer.log.length, by simp [Loop.send], d, wrote, actions, hd, hls hcall,
        by simp [Loop.send, Producer.send]⟩
  · rw [show (s.goto t _).phase = _ from hphase] at hp'
    cases hp'

/-- The handler ends. -/
theorem Audited.ends (h : Audited e ls s) {o : Outcome} {t : Worker}
    (hloop : LoopStep e.codec e.settings s.consumer.loop (.handlerEnd o) t.consumer.loop)
    (hconsumer : t.consumer = { s.consumer with loop := t.consumer.loop }) (hprogress : t.progress = .idle)
    (hend : ∀ records, s.phase = .handling records → o.transient = true ∨ ∃ failures, o = .returned failures ∧
      s.progress.collected = ((decodedOf e.codec records).length, failures)) :
    Audited e (ls ++ [l]) t := by
  have hls : ls ⊆ ls ++ [l] := List.subset_append_left ..
  have hstep : ConsumerStep e.codec e.settings e.topics s.consumer (some (.handlerEnd o)) t.consumer := by
    rw [hconsumer]
    exact .within _ _ rfl rfl hloop
  have hphase : ∀ records, t.phase ≠ .handling records := by
    intro records hp
    generalize hb : t.consumer.loop = b at hloop
    rw [Worker.phase, hb] at hp
    cases hloop with
    | handlerEnd records' o hp' =>
        unfold Loop.finish at hp
        split at hp <;> cases hp
  refine h.loop hstep (by simp) (fun hg => absurd hprogress hg) (by simp) (fun records hp => absurd hp (hphase records))
    (fun i failures d actions hg => by rw [hprogress] at hg; cases hg) fun records hp => ?_
  generalize hb : t.consumer.loop = b at hloop
  rw [Worker.phase, hb] at hp
  cases hloop with
  | handlerEnd records' _ hp' =>
      rcases hend records' hp' with htransient | ⟨failures, rfl, hcollected⟩
      · unfold Loop.finish at hp
        rw [if_pos htransient] at hp
        cases hp
      · have hold := h.reported records' hp'
        rw [hcollected] at hold
        obtain rfl := Option.some.inj hp
        exact .inr ⟨failures, rfl, hold.mono hls (fun _ hn => hn) List.prefix_rfl⟩

theorem Audited.step (h : Audited e ls s) (hl : WorkStep e s l t) : Audited e (ls ++ [l]) t := by
  have hengaged : t.Engaged e := h.engaged.step hl
  have hls : ls ⊆ ls ++ [l] := List.subset_append_left ..
  have hkept : ∀ {records : List Record} {n : ℕ} {failures : ℕ → Option Raised},
      Reported e ls s.consumer.loop records n failures → Reported e (ls ++ [l]) s.consumer.loop records n failures :=
    fun hrep => hrep.mono hls (fun _ hn => hn) List.prefix_rfl
  cases hl with
  | consumer l t hl hc =>
      cases l with
      | none =>
          cases hc with
          | relaunch => exact h.relaunch
      | some l => exact h.beside hl hc
  | begin records hp hdec hg =>
      exact h.quiet rfl hengaged (fun _ _ j hj => absurd hj (Nat.not_lt_zero j)) (by simp)
  | invalid records i failures r v x hp hg hi hv =>
      refine h.quiet rfl hengaged (fun records' hp' => ?_) (by simp)
      have hold := h.reported records' hp'
      rw [hg] at hold
      exact hkept (hold.fails x)
  | call records i failures r v d actions server hp hg hi hv hc =>
      refine h.quiet rfl hengaged (fun records' hp' => ?_) fun i' failures' d' actions' hg' => ?_
      · have hold := h.reported records' hp'
        rw [hg] at hold
        exact hkept hold
      · cases hg'
        exact ⟨records, r, v, s.writes d, hp, hi, Setup.detectionOf_decoded (List.mem_of_getElem? hi) hv, by simp⟩
  | callFailed records i failures r v d executed x hp hg hi hv hx =>
      refine h.quiet rfl hengaged (fun records' hp' => ?_) (by simp)
      have hold := h.reported records' hp'
      rw [hg] at hold
      exact hkept (hold.fails x)
  | callInterrupted records i failures r v d executed x t hp hg hi hv hx hloop =>
      exact h.ends hloop rfl rfl fun _ _ => .inl hx
  | audit i failures d actions enqueued t hg hloop => exact h.sends hg hloop
  | auditFailed i failures d actions x hg hx =>
      refine h.quiet rfl hengaged (fun records' hp' => ?_) (by simp)
      have hold := h.reported records' hp'
      rw [hg] at hold
      exact hkept (hold.fails x)
  | returned records failures t hp hg hloop =>
      refine h.ends hloop rfl rfl fun records' hp' => .inr ⟨failures, rfl, ?_⟩
      obtain rfl : records = records' := by
        rw [hp] at hp'
        cases hp'
        rfl
      rw [hg]
      rfl
  | other | tick =>
      refine h.quiet rfl hengaged (fun records' hp' => hkept (h.reported records' hp')) fun i failures d actions hg => ?_
      obtain ⟨records, r, v, wrote, hp, hi, hd, hcall⟩ := h.auditing i failures d actions hg
      exact ⟨records, r, v, wrote, hp, hi, hd, hls hcall⟩

theorem Audited.start (h : s.Fresh e) : Audited e [] s where
  covered := .start h.loop.phase h.position h.committed
  engaged hg := absurd h.progress hg
  delivery := .of_nil h.loop.sent h.loop.swallowed
  answered := by simp [Answered, h.loop.phase]
  unswallowed := h.loop.swallowed
  sound a ha := by
    rw [h.log] at ha
    cases ha
  reported records hp := by
    rw [Worker.phase, h.loop.phase] at hp
    cases hp
  auditing i failures d actions hg := by
    rw [h.progress] at hg
    cases hg
  finished records hp := by
    rw [Worker.phase, h.loop.phase] at hp
    cases hp

/-- In every run, over crashes, redelivery, refused calls and expired receipts: a record that the stored
offset has passed is a tombstone, or its dead letter is acknowledged, or `apply_containment` returned for
its detection and the audit record with what it returned is acknowledged; and every audit record ever
sent reports what a call returned for a record of the topic. -/
theorem audited_before_commit {s₀ : Worker} (h₀ : s₀.Fresh e) (h : Run (WorkStep e) s₀ ls s) :
    (∀ tp, ∀ r ∈ e.topics.log tp, r.offset < s.consumer.committed tp → Settled e ls s.consumer.loop.producer r) ∧
      ∀ a, .fromHandler a ∈ s.consumer.loop.producer.log → ∃ r d wrote actions, a = auditRecord d actions ∧
        r ∈ e.topics.log r.topicPartition ∧ e.detectionOf r = some d ∧ .call r d wrote (.returned actions) ∈ ls := by
  have hinv : Audited e ls s := h.history (.start h₀) fun _ _ _ _ hI hstep => hI.step hstep
  exact ⟨hinv.covered.committed, hinv.sound⟩

/-- The record whose call was interrupted by a crash is settled by its audit record. -/
theorem audited_after_lost_reply :
    ∃ ls s, Run (WorkStep Sample.setup) Sample.worker ls s ∧ s.consumer.committed ("detections", 0) = 1 ∧
      Settled Sample.setup ls s.consumer.loop.producer Sample.delivered := by
  obtain ⟨ls, s, h, hcommitted, -, -⟩ := Sample.redelivered_run
  have hrun : Run (WorkStep Sample.setup) Sample.worker ls s := h.mono fun _ _ _ hstep => hstep.1
  refine ⟨ls, s, hrun, hcommitted, (audited_before_commit Sample.worker_fresh hrun).1 ("detections", 0) _ ?_ ?_⟩
  · exact List.mem_singleton.mpr rfl
  · rw [hcommitted]
    decide

end

end Rtace.Containment
