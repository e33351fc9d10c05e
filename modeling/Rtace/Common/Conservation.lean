import Rtace.Common.CommitGate

/-!
# Conservation of records

What one call of `_handle_batch_with_retry` does with the records of its batch, over any number of attempts.
Every record is skipped, processed or dead-lettered, and counted once.
-/

namespace Rtace

open Lib

variable {M : Type} {c : Codec} {settings : LoopSettings}

/-! ## One call -/

/-- A call of `_handle_batch_with_retry` up to its loop: the records are decoded, and if there is nothing to
hand over or to dead-letter, it returns. -/
inductive Entered (c : Codec) (settings : LoopSettings) (s : Loop M) (records : List Record) : Loop M → Prop
  | work (hdec : ∀ r ∈ records, ¬ Escapes c r) (hwork : decodedOf c records ≠ [] ∨ undecodableOf c records ≠ []) :
      Entered c settings s records
        { s.begin records with
          delay := settings.retryInitialSeconds
          counters := { s.counters with skipped := s.counters.skipped + skippedOf c records } }
  | nothing (hdec : decodedOf c records = []) (hund : undecodableOf c records = []) :
      Entered c settings s records
        { s with
          phase := .committing records
          sent := []
          outcome := none
          swallowed := false
          counters := { s.counters with skipped := s.counters.skipped + skippedOf c records } }

/-- The loop calls it for every batch it polls. -/
theorem LoopStep.entered {s t : Loop M} {records : List Record} (h : LoopStep c settings s (.poll records) t) :
    Entered c settings s records { t with polled := s.polled } := by
  cases h with
  | poll records hp hs hne hasc hdec hwork => exact .work hdec hwork
  | pollSkipped records hp hs hne hasc hdec hund => exact .nothing hdec hund

/-- How an attempt ended; `failures` is empty if the handler was not called. -/
def LoopLabel.outcome : LoopLabel M → Option Outcome
  | .handlerEnd o => some o
  | .noHandler => some (.returned fun _ => none)
  | _ => none

/-- How the final attempt ended. -/
def finalOutcome (ls : List (LoopLabel M)) : Outcome :=
  ((ls.filterMap LoopLabel.outcome).getLast?).getD (.returned fun _ => none)

/-- The payload of a dead letter. -/
def Message.letter : Message M → Option DeadLetter
  | fromHandler _ => none
  | deadLetter p => some p

/-- The dead letters of the current attempt. -/
def Loop.deadLetters (s : Loop M) : List DeadLetter := s.sent.filterMap fun n => s.producer.log[n]?.bind Message.letter

/-- The records that are skipped. -/
def skippedRecords (c : Codec) (records : List Record) : List Record :=
  records.filter fun r =>
    match decodeJson c r.value with
    | .ok none => true
    | _ => false

/-- What a call that went from `s₀` through `s` and the steps `ls` to `t` did with its records. -/
structure Conserved (c : Codec) (settings : LoopSettings) (records : List Record) (s₀ s : Loop M)
    (ls : List (LoopLabel M)) (t : Loop M) : Prop where
  /-- Every record is in exactly one of the classes. -/
  once : (skippedRecords c records ++ processedOf c records (finalOutcome ls) ++
    (dlqOf c records (finalOutcome ls)).map Prod.fst).Perm records
  skipped : ∀ r ∈ skippedRecords c records, r.value = none ∨ r.value = some []
  /-- On every attempt the handler is called with the same records. -/
  handed : ∀ ls₁ ls₂ u rs, ls = ls₁ ++ ls₂ → Run (LoopStep c settings) s ls₁ u → u.phase = .handling rs →
    decodedOf c rs = decodedOf c records
  processed : ∀ r, r ∈ processedOf c records (finalOutcome ls) ↔
    ∃ failures i v, finalOutcome ls = .returned failures ∧ (decodedOf c records)[i]? = some (r, v) ∧ failures i = none
  /-- The final attempt is not one that asks for a retry. -/
  final : (finalOutcome ls).transient = false
  /-- The dead letters of the final attempt, one for each of its records. -/
  deadLettered : List.Forall₂ (fun p d => ∃ failedAt, p = deadLetterOf c settings failedAt d.1 d.2) t.deadLetters
    (dlqOf c records (finalOutcome ls))
  reported : ∀ r e, (r, e) ∈ dlqOf c records (finalOutcome ls) ↔
    (r ∈ records ∧ decodeJson c r.value = .error e) ∨
      ∃ i v, (decodedOf c records)[i]? = some (r, v) ∧
        (finalOutcome ls = .raised e ∨ ∃ failures, finalOutcome ls = .returned failures ∧ failures i = some e)
  countSkipped : t.counters.skipped = s₀.counters.skipped + (skippedRecords c records).length
  countProcessed : t.counters.processed = s₀.counters.processed + (processedOf c records (finalOutcome ls)).length
  countDlq : t.counters.dlq = s₀.counters.dlq + (dlqOf c records (finalOutcome ls)).length

/-- In total `consumer_records_total` grows by one for each record. -/
theorem Conserved.counted {records : List Record} {s₀ s t : Loop M} {ls : List (LoopLabel M)}
    (h : Conserved c settings records s₀ s ls t) :
    t.counters.skipped + t.counters.processed + t.counters.dlq
      = s₀.counters.skipped + s₀.counters.processed + s₀.counters.dlq + records.length := by
  have hlength := h.once.length_eq
  simp only [List.length_append, List.length_map] at hlength
  rw [h.countSkipped, h.countProcessed, h.countDlq]
  omega

/-! ## Classes -/

/-- What passes a test, and what fails it with a reason, make up the list. -/
theorem perm_filterMap_failures {α β ε : Type} (f : β → Option ε) (g : β → α) (l : List β) :
    ((l.filterMap fun b => if (f b).isNone then some (g b) else none) ++
      (l.filterMap fun b => (f b).map fun e => (g b, e)).map Prod.fst).Perm (l.map g) := by
  induction l with
  | nil => exact .nil
  | cons b l ih =>
      cases hf : f b with
      | none =>
          simp only [List.filterMap_cons, hf, Option.isNone_none, if_true, Option.map_none, List.cons_append, List.map_cons]
          exact ih.cons _
      | some e =>
          simp only [List.filterMap_cons, hf, Option.isNone_some, Option.map_some, List.map_cons]
          exact List.perm_middle.trans (ih.cons _)

/-- Decoding sorts the records into three classes. -/
theorem perm_decoding (records : List Record) :
    (skippedRecords c records ++ ((undecodableOf c records).map Prod.fst ++ (decodedOf c records).map Prod.fst)).Perm
      records := by
  induction records with
  | nil => exact .nil
  | cons r records ih =>
      simp only [skippedRecords, undecodableOf, decodedOf] at ih ⊢
      simp only [List.filter_cons, List.filterMap_cons]
      cases decodeJson c r.value with
      | error e => exact List.perm_middle.trans (ih.cons _)
      | ok v =>
          cases v with
          | none => exact ih.cons _
          | some v =>
              refine .trans (List.Perm.append_left _ List.perm_middle) ?_
              exact List.perm_middle.trans (ih.cons _)

/-- What was decoded is processed or dead-lettered. -/
theorem perm_outcome (records : List Record) (o : Outcome) :
    (processedOf c records o ++ (dlqOf c records o).map Prod.fst).Perm
      ((undecodableOf c records).map Prod.fst ++ (decodedOf c records).map Prod.fst) := by
  simp only [dlqOf, List.map_append]
  cases o with
  | raised e => simp [processedOf, Function.comp_def]
  | returned failures =>
      have hsplit := perm_filterMap_failures (fun d : (Record × Json) × ℕ => failures d.2) (fun d => d.1.1)
        (decodedOf c records).zipIdx
      have hrecords : (decodedOf c records).zipIdx.map (fun d => d.1.1) = (decodedOf c records).map Prod.fst := by
        conv_rhs => rw [← List.zipIdx_map_fst 0 (decodedOf c records), List.map_map]
        rfl
      rw [hrecords] at hsplit
      refine .trans ?_ (hsplit.append_left _)
      rw [← List.append_assoc, ← List.append_assoc]
      exact List.perm_append_comm.append_right _

theorem perm_classes (records : List Record) (o : Outcome) :
    (skippedRecords c records ++ processedOf c records o ++ (dlqOf c records o).map Prod.fst).Perm records := by
  rw [List.append_assoc]
  exact ((perm_outcome records o).append_left _).trans (perm_decoding records)

theorem mem_processedOf {records : List Record} {o : Outcome} {r : Record} :
    r ∈ processedOf c records o ↔
      ∃ failures i v, o = .returned failures ∧ (decodedOf c records)[i]? = some (r, v) ∧ failures i = none := by
  cases o with
  | raised e => simp [processedOf]
  | returned failures =>
      simp only [processedOf, List.mem_filterMap, Outcome.returned.injEq]
      constructor
      · rintro ⟨⟨⟨r', v⟩, i⟩, hmem, hpass⟩
        rw [List.mem_zipIdx_iff_getElem?] at hmem
        split at hpass
        · obtain rfl := Option.some.inj hpass
          exact ⟨failures, i, v, rfl, hmem, Option.isNone_iff_eq_none.mp ‹_›⟩
        · cases hpass
      · rintro ⟨_, i, v, rfl, hmem, hnone⟩
        exact ⟨((r, v), i), List.mem_zipIdx_iff_getElem?.mpr hmem, by simp [hnone]⟩

theorem mem_dlqOf {records : List Record} {o : Outcome} {r : Record} {e : Raised} :
    (r, e) ∈ dlqOf c records o ↔
      (r ∈ records ∧ decodeJson c r.value = .error e) ∨
        ∃ i v, (decodedOf c records)[i]? = some (r, v) ∧
          (o = .raised e ∨ ∃ failures, o = .returned failures ∧ failures i = some e) := by
  simp only [dlqOf, List.mem_append]
  refine or_congr mem_undecodableOf ?_
  cases o with
  | raised e' =>
      simp only [List.mem_map, Prod.mk.injEq, Outcome.raised.injEq, reduceCtorEq, false_and, exists_false, or_false]
      constructor
      · rintro ⟨⟨r', v⟩, hmem, rfl, rfl⟩
        obtain ⟨i, hi⟩ := List.mem_iff_getElem?.mp hmem
        exact ⟨i, v, hi, rfl⟩
      · rintro ⟨i, v, hi, rfl⟩
        exact ⟨(r, v), List.mem_of_getElem? hi, rfl, rfl⟩
  | returned failures =>
      simp only [List.mem_filterMap, reduceCtorEq, false_or, Outcome.returned.injEq, exists_eq_left']
      constructor
      · rintro ⟨⟨⟨r', v⟩, i⟩, hmem, hfail⟩
        obtain ⟨e', he', heq⟩ := Option.map_eq_some_iff.mp hfail
        obtain ⟨rfl, rfl⟩ := Prod.mk.inj heq
        exact ⟨i, v, List.mem_zipIdx_iff_getElem?.mp hmem, he'⟩
      · rintro ⟨i, v, hi, he⟩
        exact ⟨((r, v), i), List.mem_zipIdx_iff_getElem?.mpr hi, by simp [he]⟩

/-! ## The attempts -/

theorem Loop.deadLetters_send {s : Loop M} (h : ∀ n ∈ s.sent, n < s.producer.log.length) (m : Message M)
    (enqueued : Bool) : (s.send m enqueued).deadLetters = s.deadLetters ++ m.letter.toList := by
  simp only [deadLetters, send, Producer.send, List.filterMap_append]
  congr 1
  · refine List.filterMap_congr fun n hn => ?_
    rw [List.getElem?_append_left (h n hn)]
  · cases hm : m.letter with
    | none => simp [hm]
    | some p => simp [hm]

theorem finalOutcome_snoc (ls : List (LoopLabel M)) (l : LoopLabel M) :
    finalOutcome (ls ++ [l]) = l.outcome.getD (finalOutcome ls) := by
  cases hl : l.outcome with
  | none => simp [finalOutcome, List.filterMap_append, hl]
  | some o => simp [finalOutcome, List.filterMap_append, hl]

/-- The dead letters of these records, in order. -/
def Letters (c : Codec) (settings : LoopSettings) (ps : List DeadLetter) (ds : List (Record × Raised)) : Prop :=
  List.Forall₂ (fun p d => ∃ failedAt, p = deadLetterOf c settings failedAt d.1 d.2) ps ds

/-- `consumer_records_total` before the records of the batch are counted, its tombstones apart. -/
structure Uncounted (c : Codec) (records : List Record) (s₀ s : Loop M) : Prop where
  skipped : s.counters.skipped = s₀.counters.skipped + skippedOf c records
  processed : s.counters.processed = s₀.counters.processed
  dlq : s.counters.dlq = s₀.counters.dlq

/-- Where a call stands after the steps `ls`. -/
def Underway (c : Codec) (settings : LoopSettings) (records : List Record) (s₀ : Loop M) (ls : List (LoopLabel M))
    (s : Loop M) : Prop :=
  match s.phase with
  | .polling => False
  | .handling rs => rs = records ∧ s.deadLetters = [] ∧ Uncounted c records s₀ s
  | .deadLettering rs todo =>
      rs = records ∧ s.outcome = some (finalOutcome ls) ∧ (finalOutcome ls).transient = false ∧
        (∃ done, dlqOf c records (finalOutcome ls) = done ++ todo ∧ Letters c settings s.deadLetters done) ∧
        Uncounted c records s₀ s
  | .verifying rs =>
      rs = records ∧ s.outcome = some (finalOutcome ls) ∧ (finalOutcome ls).transient = false ∧
        Letters c settings s.deadLetters (dlqOf c records (finalOutcome ls)) ∧ Uncounted c records s₀ s
  | .backingOff rs _ => rs = records ∧ Uncounted c records s₀ s
  | .committing rs =>
      rs = records ∧ (finalOutcome ls).transient = false ∧
        Letters c settings s.deadLetters (dlqOf c records (finalOutcome ls)) ∧
        s.counters.skipped = s₀.counters.skipped + skippedOf c records ∧
        s.counters.processed = s₀.counters.processed + (processedOf c records (finalOutcome ls)).length ∧
        s.counters.dlq = s₀.counters.dlq + (dlqOf c records (finalOutcome ls)).length
  | .stopped => True

theorem Entered.underway {s₀ s : Loop M} {records : List Record} (h : Entered c settings s₀ records s) :
    Underway c settings records s₀ [] s := by
  cases h with
  | work hdec hwork => exact ⟨rfl, rfl, rfl, rfl, rfl⟩
  | nothing hdec hund =>
      have hdlq : dlqOf c records (finalOutcome ([] : List (LoopLabel M))) = [] := by
        simp [dlqOf, hund, finalOutcome]
      have hprocessed : processedOf c records (finalOutcome ([] : List (LoopLabel M))) = [] := by
        simp [processedOf, hdec, finalOutcome]
      refine ⟨rfl, rfl, ?_, rfl, ?_, ?_⟩
      · rw [hdlq]
        exact .nil
      · rw [hprocessed]
        rfl
      · rw [hdlq]
        rfl

section

variable {records : List Record} {s₀ s t : Loop M} {ls : List (LoopLabel M)} {l : LoopLabel M}

/-- A step that neither ends an attempt nor moves on leaves the call where it is. -/
theorem Underway.congr (h : Underway c settings records s₀ ls s) (hl : l.outcome = none) (hphase : t.phase = s.phase)
    (hout : t.outcome = s.outcome) (hletters : t.deadLetters = s.deadLetters) (hcount : t.counters = s.counters) :
    Underway c settings records s₀ (ls ++ [l]) t := by
  have hfinal : finalOutcome (ls ++ [l]) = finalOutcome ls := by
    rw [finalOutcome_snoc, hl]
    rfl
  have huncounted : Uncounted c records s₀ s → Uncounted c records s₀ t := by
    rintro ⟨hskipped, hprocessed, hdlq⟩
    exact ⟨by rw [hcount, hskipped], by rw [hcount, hprocessed], by rw [hcount, hdlq]⟩
  unfold Underway at h ⊢
  rw [hphase, hout, hletters, hfinal, hcount]
  split at h
  · exact h
  · exact ⟨h.1, h.2.1, huncounted h.2.2⟩
  · exact ⟨h.1, h.2.1, h.2.2.1, h.2.2.2.1, huncounted h.2.2.2.2⟩
  · exact ⟨h.1, h.2.1, h.2.2.1, h.2.2.2.1, huncounted h.2.2.2.2⟩
  · exact ⟨h.1, huncounted h.2⟩
  · exact h
  · trivial

/-- The end of an attempt. -/
theorem Underway.finish {rs : List Record} {o : Outcome} (h : Underway c settings records s₀ ls s)
    (hp : s.phase = .handling rs) (hl : l.outcome = some o) :
    Underway c settings records s₀ (ls ++ [l]) (s.finish c rs o) := by
  simp only [Underway, hp] at h
  obtain ⟨rfl, hnone, hcount⟩ := h
  have hfinal : finalOutcome (ls ++ [l]) = o := by
    rw [finalOutcome_snoc, hl]
    rfl
  unfold Loop.finish
  split
  case isTrue hretry => exact ⟨rfl, hcount.skipped, hcount.processed, hcount.dlq⟩
  case isFalse hgo =>
    have hletters : Letters c settings s.deadLetters [] := by
      rw [hnone]
      exact .nil
    refine ⟨rfl, ?_, ?_, ⟨[], ?_, hletters⟩, hcount.skipped, hcount.processed, hcount.dlq⟩
    · rw [hfinal]
    · rw [hfinal]
      exact Bool.eq_false_iff.mpr hgo
    · rw [hfinal]
      rfl

/-- The step lemma: up to the commit every step keeps the call on its way. -/
theorem Underway.step (h : Underway c settings records s₀ ls s) (hknown : ∀ n ∈ s.sent, n < s.producer.log.length)
    (hl : LoopStep c settings s l t) (hcommit : l.committedBatch = none) :
    Underway c settings records s₀ (ls ++ [l]) t := by
  cases hl with
  | pollNothing hp | poll _ hp | pollSkipped _ hp | stop hp => simp [Underway, hp] at h
  | pollEscape _ hp => simp [Underway, hp] at h
  | handlerSend rs m enqueued hp =>
      refine h.congr rfl rfl rfl ?_ rfl
      rw [Loop.deadLetters_send hknown]
      simp [Message.letter]
  | handlerFlush | handlerFlushRaised | ack | fail | shutdown => exact h.congr rfl rfl rfl rfl rfl
  | handlerEnd rs o hp => exact h.finish hp rfl
  | noHandler rs hp => exact h.finish hp rfl
  | sendToDlq rs r e todo failedAt enqueued hp =>
      simp only [Underway, hp] at h
      obtain ⟨rfl, hout, htransient, ⟨done, hsplit, hletters⟩, hcount⟩ := h
      have hfinal : finalOutcome (ls ++ [.sendToDlq (deadLetterOf c settings failedAt r e) enqueued]) = finalOutcome ls :=
        finalOutcome_snoc _ _
      have hsent : Letters c settings (s.send (.deadLetter (deadLetterOf c settings failedAt r e)) enqueued).deadLetters
          (done ++ [(r, e)]) := by
        rw [Loop.deadLetters_send hknown]
        exact List.rel_append hletters (.cons ⟨failedAt, rfl⟩ .nil)
      simp only [Underway, hfinal]
      refine ⟨trivial, hout, htransient, ⟨done ++ [(r, e)], ?_, hsent⟩, hcount.skipped, hcount.processed, hcount.dlq⟩
      rw [hsplit, List.append_assoc, List.singleton_append]
  | dlqEscape => trivial
  | sentToDlq rs hp =>
      simp only [Underway, hp] at h
      obtain ⟨rfl, hout, htransient, ⟨done, hsplit, hletters⟩, hcount⟩ := h
      rw [List.append_nil] at hsplit
      have hfinal : finalOutcome (ls ++ [.sentToDlq]) = finalOutcome ls := finalOutcome_snoc _ _
      simp only [Underway, hfinal, hsplit]
      exact ⟨trivial, hout, htransient, hletters, hcount.skipped, hcount.processed, hcount.dlq⟩
  | verified rs o hp ho =>
      simp only [Underway, hp] at h
      obtain ⟨rfl, hout, htransient, hletters, hcount⟩ := h
      have hfinal : finalOutcome (ls ++ [.flushAndVerify false]) = o := by
        rw [finalOutcome_snoc]
        exact Option.some.inj (hout.symm.trans ho)
      have hlast : finalOutcome ls = o := Option.some.inj (hout.symm.trans ho)
      rw [hlast] at htransient hletters
      refine ⟨rfl, ?_, ?_, hcount.skipped, ?_, ?_⟩
      · rw [hfinal]
        exact htransient
      · rw [hfinal]
        exact hletters
      · rw [hfinal]
        exact congrArg (· + _) hcount.processed
      · rw [hfinal]
        exact congrArg (· + _) hcount.dlq
  | notVerified rs hp =>
      simp only [Underway, hp] at h
      obtain ⟨rfl, -, -, -, hcount⟩ := h
      exact ⟨rfl, hcount.skipped, hcount.processed, hcount.dlq⟩
  | sleep rs hp =>
      simp only [Underway, hp] at h
      exact ⟨h.1, h.2.skipped, h.2.processed, h.2.dlq⟩
  | retry rs hp =>
      simp only [Underway, hp] at h
      exact ⟨h.1, rfl, h.2.skipped, h.2.processed, h.2.dlq⟩
  | abandon => trivial
  | commit => cases hcommit

/-- Before the first attempt nothing is sent. -/
theorem Entered.delivery (h : Entered c settings s₀ records s) : Delivery s := by
  cases h with
  | work => exact .of_nil rfl rfl
  | nothing => exact .of_nil rfl rfl

/-- The run lemma. -/
theorem Entered.run (h : Entered c settings s₀ records s) (hrun : Run (LoopStep c settings) s ls t)
    (hcall : ∀ l ∈ ls, l.committedBatch = none) : Underway c settings records s₀ ls t := by
  have hinv : Delivery t ∧ ((∀ l ∈ ls, l.committedBatch = none) → Underway c settings records s₀ ls t) := by
    refine hrun.history (I := fun ls t => Delivery t ∧
      ((∀ l ∈ ls, l.committedBatch = none) → Underway c settings records s₀ ls t)) ⟨h.delivery, fun _ => h.underway⟩
      fun ls a l b hI hstep => ⟨hI.1.step hstep, fun hcall => ?_⟩
    have hbefore : Underway c settings records s₀ ls a := hI.2 fun l' hl' => hcall l' (List.mem_append_left _ hl')
    exact hbefore.step hI.1.known hstep (hcall l (by simp))
  exact hinv.2 hcall

/-- Whatever is handed over within the call is the call's own batch. -/
theorem Entered.handed (h : Entered c settings s₀ records s) (hrun : Run (LoopStep c settings) s ls t)
    (hcall : ∀ l ∈ ls, l.committedBatch = none) {rs : List Record} (hp : t.phase = .handling rs) : rs = records := by
  have hunder := h.run hrun hcall
  simp only [Underway, hp] at hunder
  exact hunder.1

theorem length_skippedRecords (c : Codec) (records : List Record) :
    (skippedRecords c records).length = skippedOf c records :=
  List.countP_eq_length_filter.symm

/-- Only tombstones are skipped, exactly if no value is the document `null`. -/
theorem skipped_iff :
    (∀ r ∈ skippedRecords c records, r.value = none ∨ r.value = some []) ↔
      ∀ r ∈ records, ∀ raw, r.value = some raw → c.loads raw = .value .null → raw = [] := by
  constructor
  · intro h r hr raw hraw hnull
    by_contra hne
    have hskipped : decodeJson c r.value = .ok none := by
      cases raw with
      | nil => exact absurd rfl hne
      | cons b raw => simp only [hraw, decodeJson, hnull]
    rcases h r (List.mem_filter.mpr ⟨hr, by rw [hskipped]⟩) with hnone | hempty
    · rw [hraw] at hnone
      cases hnone
    · rw [hraw] at hempty
      exact hne (Option.some.inj hempty)
  · intro h r hr
    obtain ⟨hr, hskipped⟩ := List.mem_filter.mp hr
    rcases hvalue : r.value with _ | _ | ⟨b, raw⟩
    · exact Or.inl rfl
    · exact Or.inr rfl
    · have hnull : c.loads (b :: raw) = .value .null := by
        rw [hvalue] at hskipped
        simp only [decodeJson] at hskipped
        cases hloads : c.loads (b :: raw) with
        | value j =>
            cases j with
            | null => rfl
            | _ => simp [hloads] at hskipped
        | malformed text => simp [hloads] at hskipped
        | raises e => simp [hloads] at hskipped
      exact Or.inr (congrArg some (h r hr (b :: raw) hvalue hnull))

end

/-- Whenever a call returns, after any number of attempts, it has conserved its records, exactly if none of
them has the document `null` as its value. -/
theorem conserved_iff {records rs : List Record} {s₀ s t : Loop M} {ls : List (LoopLabel M)}
    (henter : Entered c settings s₀ records s) (hrun : Run (LoopStep c settings) s ls t)
    (hcall : ∀ l ∈ ls, l.committedBatch = none) (hreturn : t.phase = .committing rs) :
    Conserved c settings records s₀ s ls t ↔
      ∀ r ∈ records, ∀ raw, r.value = some raw → c.loads raw = .value .null → raw = [] := by
  rw [← skipped_iff]
  refine ⟨Conserved.skipped, fun hskipped => ?_⟩
  have hunder := henter.run hrun hcall
  simp only [Underway, hreturn] at hunder
  obtain ⟨-, htransient, hletters, hcountSkipped, hcountProcessed, hcountDlq⟩ := hunder
  rw [← length_skippedRecords] at hcountSkipped
  refine ⟨perm_classes _ _, hskipped, fun ls₁ ls₂ u rs hls hu hp => ?_, fun _ => mem_processedOf, htransient, hletters,
    fun _ _ => mem_dlqOf, hcountSkipped, hcountProcessed, hcountDlq⟩
  rw [henter.handed hu (fun l hl => hcall l (by rw [hls]; exact List.mem_append_left _ hl)) hp]

namespace LoopSample

/-- The call for a batch of one record. -/
def entered : Loop Unit := { start.begin [record] with delay := 1 / 2 }

theorem entered_record : Entered codec detection start [record] entered :=
  .work (by simp [Escapes, decodeJson, record, codec]) (Or.inl (by simp [decodedOf_record]))

end LoopSample

/-- Redis times out in the first attempt and answers in the second; the record is processed and counted once. -/
theorem conserved_iff_retry :
    ∃ ls t, Run (LoopStep LoopSample.codec LoopSample.detection) LoopSample.entered ls t ∧ .retry ∈ ls ∧
      Conserved LoopSample.codec LoopSample.detection [LoopSample.record] LoopSample.start LoopSample.entered ls t := by
  have hdec : decodedOf LoopSample.codec [LoopSample.record] ≠ [] := by simp [LoopSample.decodedOf_record]
  have hattempts : ∃ ls t, Run (LoopStep LoopSample.codec LoopSample.detection) LoopSample.entered ls t ∧ .retry ∈ ls ∧
      (∀ l ∈ ls, l.committedBatch = none) ∧ t.phase = .committing [LoopSample.record] :=
    ⟨_, _, .cons (.handlerEnd [LoopSample.record]
        (.raised ⟨.redisTransient, "TimeoutError", "Timeout reading from socket"⟩) rfl hdec)
      (.cons (.sleep [LoopSample.record] rfl rfl)
      (.cons (.retry [LoopSample.record] rfl rfl)
      (.cons (.handlerEnd [LoopSample.record] (.returned fun _ => none) rfl hdec)
      (.cons (.sentToDlq [LoopSample.record] rfl)
      (.single (.verified [LoopSample.record] (.returned fun _ => none) rfl rfl rfl rfl)))))),
      by simp, by simp [LoopLabel.committedBatch], rfl⟩
  obtain ⟨ls, t, hrun, hretry, hcall, hp⟩ := hattempts
  refine ⟨ls, t, hrun, hretry, (conserved_iff LoopSample.entered_record hrun hcall hp).mpr ?_⟩
  simp [LoopSample.record, LoopSample.codec]

namespace LoopSample

/-- `json.loads` on the document `null`. -/
def nullCodec : Codec where
  loads raw := if raw = [110, 117, 108, 108] then .value .null else .malformed "Expecting value: line 1 column 1 (char 0)"
  decodeReplace _ := ""

/-- A record whose value is the document `null`. -/
def nullRecord : Record := ⟨"tx-events", 0, 0, none, some [110, 117, 108, 108]⟩

end LoopSample

/-- The document `null` is taken for a tombstone: the call returns at once, the record counts as skipped and
leaves no trace. -/
theorem null_record_skipped :
    ∃ s : Loop Unit, Entered LoopSample.nullCodec LoopSample.detection LoopSample.start [LoopSample.nullRecord] s ∧
      s.phase = .committing [LoopSample.nullRecord] ∧ s.counters.skipped = 1 ∧ s.deadLetters = [] ∧
      ¬ Conserved LoopSample.nullCodec LoopSample.detection [LoopSample.nullRecord] LoopSample.start s [] s := by
  refine ⟨_, .nothing rfl rfl, rfl, rfl, rfl, fun h => ?_⟩
  have hskipped := h.skipped LoopSample.nullRecord
    (by simp [skippedRecords, decodeJson, LoopSample.nullRecord, LoopSample.nullCodec])
  simp [LoopSample.nullRecord] at hskipped

end Rtace
