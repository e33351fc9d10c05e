import Mathlib.Data.List.Induction
import Rtace.Common.ConsumerLoop

/-!
# The commit gate

What stands between a polled batch and its commit: every message of the last attempt is acknowledged,
every record was accepted or dead-lettered, and the committed offset of a partition is one past its last
record. The first part rests on the latch of the producer. A handler that lets its own
`flush_and_verify` consume the latch and then does not ask for a retry opens the gate, and only such a
handler does (`acked_iff_not_swallowed`).
-/

namespace Rtace

open Lib

variable {M : Type} {c : Codec} {settings : LoopSettings}

/-! ## Committed offsets -/

/-- One past the largest offset of each partition. -/
theorem commitOffsets_spec {records : List Record} (hasc : Ascending records) (tp : String × ℕ) :
    (commitOffsets records tp = none ∧ ∀ r ∈ records, r.topicPartition ≠ tp) ∨
      ∃ r ∈ records, r.topicPartition = tp ∧ commitOffsets records tp = some (r.offset + 1) ∧
        ∀ r' ∈ records, r'.topicPartition = tp → r'.offset ≤ r.offset := by
  induction records using List.reverseRecOn with
  | nil => exact .inl ⟨rfl, by simp⟩
  | append_singleton records r ih =>
      obtain ⟨hinit, -, hlast⟩ := List.pairwise_append.mp hasc
      have hstep : commitOffsets (records ++ [r]) tp
          = Function.update (commitOffsets records) r.topicPartition (some (r.offset + 1)) tp := by
        simp only [commitOffsets, List.foldl_append, List.foldl_cons, List.foldl_nil]
      rw [hstep]
      by_cases htp : r.topicPartition = tp
      · -- the last record is of this partition: it has the largest offset
        subst htp
        refine .inr ⟨r, by simp, rfl, Function.update_self .., fun r' hr' hsame => ?_⟩
        rcases List.mem_append.mp hr' with hr' | hr'
        · exact (hlast r' hr' r (by simp) hsame).le
        · rw [List.mem_singleton.mp hr']
      · rw [Function.update_of_ne (Ne.symm htp)]
        rcases ih hinit with ⟨hnone, hother⟩ | ⟨r₀, hr₀, hsame, hsome, hmax⟩
        · refine .inl ⟨hnone, fun r' hr' => ?_⟩
          rcases List.mem_append.mp hr' with hr' | hr'
          · exact hother r' hr'
          · rw [List.mem_singleton.mp hr']
            exact htp
        · refine .inr ⟨r₀, List.mem_append_left _ hr₀, hsame, hsome, fun r' hr' hsame' => ?_⟩
          rcases List.mem_append.mp hr' with hr' | hr'
          · exact hmax r' hr' hsame'
          · rw [List.mem_singleton.mp hr'] at hsame'
            exact absurd hsame' htp

/-! ## Delivery -/

/-- An attempt is under way. -/
def Phase.attempting : Phase → Bool
  | .handling _ | .deadLettering .. | .verifying _ => true
  | _ => false

/-- The sends of the current attempt, their outcomes and the latch. -/
structure Delivery (s : Loop M) : Prop where
  known : ∀ n ∈ s.sent, n < s.producer.log.length
  /-- A failed send is latched, unless the handler has consumed the latch. -/
  latched : s.phase.attempting → ∀ n ∈ s.sent, n ∈ s.producer.acked ∨ n ∈ s.producer.inflight ∨
    s.producer.latch = true ∨ s.swallowed = true
  /-- A consumed failure stays a failure. -/
  lost : s.swallowed = true → ∃ n ∈ s.sent, n ∉ s.producer.acked ∧ n ∉ s.producer.inflight
  gate : ∀ records, s.phase = .committing records → s.swallowed = false → ∀ n ∈ s.sent, n ∈ s.producer.acked

/-- A send joins the attempt in flight, or latched. -/
theorem Delivery.send {s : Loop M} (h : Delivery s) (hatt : s.phase.attempting) {m : Message M} {enqueued : Bool} :
    Delivery (s.send m enqueued) := by
  refine ⟨fun n hn => ?_, fun _ n hn => ?_, fun hsw => ?_, fun records hp => ?_⟩
  · simp only [Loop.send, Producer.send, List.length_append, List.length_singleton]
    rcases List.mem_append.mp hn with hn | hn
    · exact Nat.lt_succ_of_lt (h.known n hn)
    · rw [List.mem_singleton.mp hn]
      exact Nat.lt_succ_self _
  · rcases List.mem_append.mp hn with hn | hn
    · rcases h.latched hatt n hn with hack | hfly | hlatch | hsw
      · exact .inl hack
      · refine .inr (.inl ?_)
        simp only [Loop.send, Producer.send]
        split
        · exact List.mem_append_left _ hfly
        · exact hfly
      · exact .inr (.inr (.inl (by simp [Loop.send, Producer.send, hlatch])))
      · exact .inr (.inr (.inr hsw))
    · rw [List.mem_singleton.mp hn]
      cases enqueued with
      | true => exact .inr (.inl (by simp [Loop.send, Producer.send]))
      | false => exact .inr (.inr (.inl (by simp [Loop.send, Producer.send])))
  · obtain ⟨n, hn, hack, hfly⟩ := h.lost hsw
    refine ⟨n, List.mem_append_left _ hn, hack, ?_⟩
    have hne : n ≠ s.producer.log.length := (h.known n hn).ne
    simp only [Loop.send, Producer.send]
    split
    · simp [hfly, hne]
    · exact hfly
  · simp only [Loop.send] at hp
    rw [hp] at hatt
    cases hatt

/-- The end of the handler keeps delivery: nothing is sent or settled. -/
theorem Delivery.of_phase {s t : Loop M} (h : Delivery s) (hprod : t.producer = s.producer)
    (hsent : t.sent = s.sent) (hsw : t.swallowed = s.swallowed)
    (hatt : t.phase.attempting → s.phase.attempting)
    (hcommit : ∀ records, t.phase = .committing records → s.swallowed = false →
      ∀ n ∈ s.sent, n ∈ s.producer.acked) : Delivery t where
  known := by
    rw [hsent, hprod]
    exact h.known
  latched ht := by
    rw [hsent, hprod, hsw]
    exact h.latched (hatt ht)
  lost := by
    rw [hsent, hprod, hsw]
    exact h.lost
  gate := by
    rw [hsent, hprod, hsw]
    exact hcommit

/-- A fresh attempt has sent nothing. -/
theorem Delivery.of_nil {s : Loop M} (hsent : s.sent = []) (hsw : s.swallowed = false) : Delivery s where
  known := by simp [hsent]
  latched := by simp [hsent]
  lost := by simp [hsw]
  gate := by simp [hsent]

theorem Delivery.step {s t : Loop M} {l : LoopLabel M} (h : Delivery s) (hl : LoopStep c settings s l t) :
    Delivery t := by
  cases hl with
  | pollNothing => exact h
  | poll records | pollSkipped records => exact .of_nil rfl rfl
  | pollEscape | stop | dlqEscape | sleep | abandon | commit =>
      exact h.of_phase rfl rfl rfl (by simp [Phase.attempting]) (by simp)
  | handlerSend records m enqueued hp hdec => exact h.send (by rw [hp]; rfl)
  | handlerFlush => exact h
  | handlerFlushRaised records hp hdec hflush hlatch =>
      refine ⟨h.known, fun _ n hn => ?_, fun hsw => ?_, fun records' hp' => ?_⟩
      · by_cases hack : n ∈ s.producer.acked
        · exact .inl hack
        · have hun : s.unacked = true := List.any_eq_true.mpr ⟨n, hn, by simpa using hack⟩
          exact .inr (.inr (.inr (by simp [hun])))
      · rcases Bool.or_eq_true_iff.mp hsw with hsw | hun
        · exact h.lost hsw
        · obtain ⟨n, hn, hack⟩ := List.any_eq_true.mp hun
          refine ⟨n, hn, by simpa [Producer.clear] using hack, ?_⟩
          simp [Producer.clear, hflush]
      · rw [show s.phase = _ from hp'] at hp
        cases hp
  | handlerEnd records o hp hdec =>
      simp only [Loop.finish]
      split
      · exact h.of_phase rfl rfl rfl (by simp [Loop.backOff, Phase.attempting]) (by simp [Loop.backOff])
      · exact h.of_phase rfl rfl rfl (fun _ => by rw [hp]; rfl) (by simp)
  | noHandler records hp hdec =>
      exact h.of_phase rfl rfl rfl (fun _ => by rw [hp]; rfl) (by simp [Loop.finish, Outcome.transient])
  | sendToDlq records r e todo failedAt enqueued hp =>
      have hatt : s.phase.attempting := by rw [hp]; rfl
      exact (h.send hatt).of_phase rfl rfl rfl (fun _ => hatt) (by simp)
  | sentToDlq records hp => exact h.of_phase rfl rfl rfl (fun _ => by rw [hp]; rfl) (by simp)
  | verified records o hp ho hflush hlatch =>
      refine h.of_phase rfl rfl rfl (by simp [Phase.attempting]) fun _ _ hsw n hn => ?_
      rcases h.latched (by rw [hp]; rfl) n hn with hack | hfly | hlatch' | hsw'
      · exact hack
      · simp [hflush] at hfly
      · simp [hlatch] at hlatch'
      · simp [hsw] at hsw'
  | notVerified records hp hflush hlatch =>
      exact ⟨h.known, by simp [Loop.backOff, Phase.attempting], h.lost, by simp [Loop.backOff]⟩
  | retry records => exact .of_nil rfl rfl
  | ack n hn =>
      refine ⟨h.known, fun hatt m hm => ?_, fun hsw => ?_, fun records hp hsw m hm => ?_⟩
      · rcases h.latched hatt m hm with hack | hfly | hrest
        · exact .inl (List.mem_append_left _ hack)
        · rcases eq_or_ne m n with rfl | hne
          · exact .inl (by simp [Producer.ack])
          · exact .inr (.inl (by simpa [Producer.ack, hne] using hfly))
        · exact .inr (.inr hrest)
      · obtain ⟨m, hm, hack, hfly⟩ := h.lost hsw
        have hne : m ≠ n := fun heq => hfly (heq ▸ hn)
        exact ⟨m, hm, by simp [Producer.ack, hack, hne], by simp [Producer.ack, hfly]⟩
      · exact List.mem_append_left _ (h.gate records hp hsw m hm)
  | fail n hn =>
      refine ⟨h.known, fun _ m _ => .inr (.inr (.inl rfl)), fun hsw => ?_, h.gate⟩
      obtain ⟨m, hm, hack, hfly⟩ := h.lost hsw
      exact ⟨m, hm, hack, by simp [Producer.fail, hfly]⟩
  | shutdown => exact h.of_phase rfl rfl rfl (fun ha => ha) h.gate

/-! ## Records -/

/-- A dead letter of `r` was sent in the current attempt. -/
def DeadLettered (s : Loop M) (r : Record) : Prop :=
  ∃ n ∈ s.sent, ∃ p, s.producer.log[n]? = some (.deadLetter p) ∧ p.sourceTopic = r.topic ∧
    p.partition = r.partition ∧ p.offset = r.offset

/-- The record at index `i` was accepted by the handler in the current attempt. -/
def Accepted (s : Loop M) (i : ℕ) : Prop := ∃ failures, s.outcome = some (.returned failures) ∧ failures i = none

/-- Which dead letters have been sent, by phase. -/
def Answered (c : Codec) (s : Loop M) : Prop :=
  match s.phase with
  | .deadLettering records todo =>
      ∃ o done, s.outcome = some o ∧ dlqOf c records o = done ++ todo ∧ ∀ d ∈ done, DeadLettered s d.1
  | .verifying records => ∃ o, s.outcome = some o ∧ ∀ d ∈ dlqOf c records o, DeadLettered s d.1
  | .committing records =>
      decodedOf c records = [] ∧ undecodableOf c records = [] ∨
        ∃ o, s.outcome = some o ∧ ∀ d ∈ dlqOf c records o, DeadLettered s d.1
  | _ => True

/-- What was sent stays sent. -/
theorem getElem?_of_prefix {α : Type} {l l' : List α} (h : l <+: l') {n : ℕ} {a : α} (hn : l[n]? = some a) :
    l'[n]? = some a := by
  obtain ⟨rest, rfl⟩ := h
  rw [List.getElem?_append_left (List.getElem?_eq_some_iff.mp hn).1]
  exact hn

theorem DeadLettered.mono {s t : Loop M} {r : Record} (h : DeadLettered s r) (hsent : s.sent ⊆ t.sent)
    (hlog : s.producer.log <+: t.producer.log) : DeadLettered t r := by
  obtain ⟨n, hn, p, hp, hrest⟩ := h
  exact ⟨n, hsent hn, p, getElem?_of_prefix hlog hp, hrest⟩

/-- A step that leaves phase, outcome and sends alone leaves the answers alone. -/
theorem Answered.congr {s t : Loop M} (h : Answered c s) (hphase : t.phase = s.phase)
    (hout : t.outcome = s.outcome) (hsent : t.sent = s.sent) (hlog : t.producer.log = s.producer.log) :
    Answered c t := by
  have hprefix : s.producer.log <+: t.producer.log := ⟨[], by rw [List.append_nil, hlog]⟩
  have hmono : ∀ r, DeadLettered s r → DeadLettered t r := fun r hr =>
    hr.mono (by rw [hsent]; exact fun _ hn => hn) hprefix
  unfold Answered at h ⊢
  rw [hphase, hout]
  split at h
  · obtain ⟨o, done, ho, hsplit, hdone⟩ := h
    exact ⟨o, done, ho, hsplit, fun d hd => hmono _ (hdone d hd)⟩
  · obtain ⟨o, ho, hall⟩ := h
    exact ⟨o, ho, fun d hd => hmono _ (hall d hd)⟩
  · rcases h with hskip | ⟨o, ho, hall⟩
    · exact .inl hskip
    · exact .inr ⟨o, ho, fun d hd => hmono _ (hall d hd)⟩
  · trivial

theorem Answered.step {s t : Loop M} {l : LoopLabel M} (h : Answered c s) (hl : LoopStep c settings s l t) :
    Answered c t := by
  cases hl with
  | pollNothing | handlerFlush => exact h
  | poll | pollEscape | stop | dlqEscape | retry | abandon | sleep | commit | notVerified => trivial
  | pollSkipped records hp hs hne hasc hdec hund => exact .inl ⟨hdec, hund⟩
  | handlerSend records m enqueued hp =>
      have : (s.send (.fromHandler m) enqueued).phase = .handling records := hp
      simp only [Answered, this]
  | handlerFlushRaised records hp => exact h.congr rfl rfl rfl rfl
  | handlerEnd records o hp hdec =>
      simp only [Loop.finish]
      split
      · trivial
      · exact ⟨o, [], rfl, rfl, by simp⟩
  | noHandler records hp hdec => exact ⟨_, [], rfl, rfl, by simp⟩
  | sendToDlq records r e todo failedAt enqueued hp =>
      simp only [Answered, hp] at h
      obtain ⟨o, done, ho, hsplit, hdone⟩ := h
      refine ⟨o, done ++ [(r, e)], ho, by rw [hsplit]; simp, fun d hd => ?_⟩
      rcases List.mem_append.mp hd with hd | hd
      · exact (hdone d hd).mono (List.subset_append_left ..) (List.prefix_append ..)
      · rw [List.mem_singleton.mp hd]
        refine ⟨s.producer.log.length, by simp [Loop.send], deadLetterOf c settings failedAt r e, ?_,
          rfl, rfl, rfl⟩
        simp [Loop.send, Producer.send]
  | sentToDlq records hp =>
      simp only [Answered, hp] at h
      obtain ⟨o, done, ho, hsplit, hdone⟩ := h
      rw [List.append_nil] at hsplit
      exact ⟨o, ho, fun d hd => hdone d (hsplit ▸ hd)⟩
  | verified records o hp =>
      simp only [Answered, hp] at h
      exact .inr h
  | ack | fail | shutdown => exact h.congr rfl rfl rfl rfl

theorem mem_undecodableOf {records : List Record} {r : Record} {e : Raised} :
    (r, e) ∈ undecodableOf c records ↔ r ∈ records ∧ decodeJson c r.value = .error e := by
  simp only [undecodableOf, List.mem_filterMap]
  constructor
  · rintro ⟨r', hr', hmatch⟩
    split at hmatch
    · rename_i e' he'
      obtain ⟨rfl, rfl⟩ := Prod.mk.inj (Option.some.inj hmatch)
      exact ⟨hr', he'⟩
    · cases hmatch
  · rintro ⟨hr, he⟩
    exact ⟨r, hr, by rw [he]⟩

/-- In a batch that is about to be committed every undecodable record has its dead letter, and every
decoded one was accepted or has its dead letter. -/
theorem Answered.records {s : Loop M} (h : Answered c s) {records : List Record}
    (hp : s.phase = .committing records) :
    (∀ r ∈ records, ∀ e, decodeJson c r.value = .error e → DeadLettered s r) ∧
      ∀ i r v, (decodedOf c records)[i]? = some (r, v) → Accepted s i ∨ DeadLettered s r := by
  simp only [Answered, hp] at h
  rcases h with ⟨hdec, hnone⟩ | ⟨o, ho, hall⟩
  · refine ⟨fun r hr e he => ?_, fun i r v hi => by simp [hdec] at hi⟩
    have hmem : (r, e) ∈ undecodableOf c records := mem_undecodableOf.mpr ⟨hr, he⟩
    rw [hnone] at hmem
    cases hmem
  · refine ⟨fun r hr e he => hall (r, e) (List.mem_append_left _ (mem_undecodableOf.mpr ⟨hr, he⟩)), fun i r v hi => ?_⟩
    cases o with
    | raised e =>
        refine .inr (hall (r, e) (List.mem_append_right _ ?_))
        exact List.mem_map.mpr ⟨(r, v), List.mem_of_getElem? hi, rfl⟩
    | returned failures =>
        cases hf : failures i with
        | none => exact .inl ⟨failures, ho, hf⟩
        | some e =>
            refine .inr (hall (r, e) (List.mem_append_right _ ?_))
            exact List.mem_filterMap.mpr ⟨((r, v), i), List.mem_zipIdx_iff_getElem?.mpr hi, by simp [hf]⟩

/-! ## The history of batches -/

/-- The batch of a poll. -/
def LoopLabel.polledBatch : LoopLabel M → Option (List Record)
  | .poll records | .pollEscape records => some records
  | _ => none

/-- The batch for which `commit` is called. -/
def LoopLabel.committedBatch : LoopLabel M → Option (List Record)
  | .commit records _ _ => some records
  | _ => none

/-- The batch the loop is working on. -/
def Phase.current : Phase → List (List Record)
  | .polling | .stopped => []
  | .handling records | .deadLettering records _ | .verifying records | .backingOff records _
  | .committing records => [records]

/-- Batches are polled in offset order, and each is committed before the next is polled. -/
structure History (ls : List (LoopLabel M)) (s : Loop M) : Prop where
  polled : (ls.filterMap LoopLabel.polledBatch).flatten = s.polled
  ascending : Ascending s.polled
  nonempty : ∀ b ∈ ls.filterMap LoopLabel.polledBatch, b ≠ []
  working : s.phase ≠ .stopped →
    ls.filterMap LoopLabel.polledBatch = ls.filterMap LoopLabel.committedBatch ++ s.phase.current
  last : ∃ rest, rest.length ≤ 1 ∧
    ls.filterMap LoopLabel.polledBatch = ls.filterMap LoopLabel.committedBatch ++ rest
  abandoned : ∀ records, .abandon records ∈ ls → s.phase = .stopped ∧
    ls.filterMap LoopLabel.polledBatch = ls.filterMap LoopLabel.committedBatch ++ [records]
  offsets : ∀ records offsets ok, .commit records offsets ok ∈ ls → offsets = commitOffsets records

section

variable {ls : List (LoopLabel M)} {s t : Loop M} {l : LoopLabel M}

/-- A step that neither polls, nor commits, nor abandons. -/
theorem History.silent (h : History ls s) (hpoll : l.polledBatch = none) (hcommit : l.committedBatch = none)
    (habandon : ∀ records, l ≠ .abandon records) (hpolled : t.polled = s.polled)
    (hphase : t.phase ≠ .stopped → s.phase ≠ .stopped ∧ t.phase.current = s.phase.current)
    (hstopped : s.phase = .stopped → t.phase = .stopped) : History (ls ++ [l]) t := by
  have hpolls : (ls ++ [l]).filterMap LoopLabel.polledBatch = ls.filterMap LoopLabel.polledBatch := by
    simp [List.filterMap_append, hpoll]
  have hcommits : (ls ++ [l]).filterMap LoopLabel.committedBatch = ls.filterMap LoopLabel.committedBatch := by
    simp [List.filterMap_append, hcommit]
  refine ⟨?_, ?_, ?_, fun ht => ?_, ?_, fun records hmem => ?_, fun records offsets ok hmem => ?_⟩
  · rw [hpolls, hpolled]
    exact h.polled
  · rw [hpolled]
    exact h.ascending
  · rw [hpolls]
    exact h.nonempty
  · obtain ⟨hs, hcurrent⟩ := hphase ht
    rw [hpolls, hcommits, hcurrent]
    exact h.working hs
  · rw [hpolls, hcommits]
    exact h.last
  · rcases List.mem_append.mp hmem with hmem | hmem
    · obtain ⟨hs, hlast⟩ := h.abandoned records hmem
      rw [hpolls, hcommits]
      exact ⟨hstopped hs, hlast⟩
    · exact absurd (List.mem_singleton.mp hmem).symm (habandon records)
  · rcases List.mem_append.mp hmem with hmem | hmem
    · exact h.offsets records offsets ok hmem
    · rw [← List.mem_singleton.mp hmem] at hcommit
      cases hcommit

/-- A poll, whether or not its batch can be decoded. -/
theorem History.poll (h : History ls s) {records : List Record} (hl : l.polledBatch = some records)
    (hcommit : l.committedBatch = none) (hp : s.phase = .polling) (hne : records ≠ [])
    (hasc : Ascending (s.polled ++ records)) (hpolled : t.polled = s.polled ++ records)
    (hphase : t.phase ≠ .stopped → t.phase.current = [records]) : History (ls ++ [l]) t := by
  have hpolls : (ls ++ [l]).filterMap LoopLabel.polledBatch
      = ls.filterMap LoopLabel.polledBatch ++ [records] := by
    simp [List.filterMap_append, hl]
  have hcommits : (ls ++ [l]).filterMap LoopLabel.committedBatch = ls.filterMap LoopLabel.committedBatch := by
    simp [List.filterMap_append, hcommit]
  have hall : ls.filterMap LoopLabel.polledBatch = ls.filterMap LoopLabel.committedBatch := by
    simpa [hp, Phase.current] using h.working (by rw [hp]; simp)
  refine ⟨?_, ?_, ?_, fun ht => ?_, ⟨[records], by simp, by rw [hpolls, hcommits, hall]⟩,
    fun records' hmem => ?_, fun records' offsets ok hmem => ?_⟩
  · rw [hpolls, hpolled, List.flatten_append, h.polled]
    simp
  · rw [hpolled]
    exact hasc
  · rw [hpolls]
    intro b hb
    rcases List.mem_append.mp hb with hb | hb
    · exact h.nonempty b hb
    · rw [List.mem_singleton.mp hb]
      exact hne
  · rw [hpolls, hcommits, hall, hphase ht]
  · rcases List.mem_append.mp hmem with hmem | hmem
    · have hs := (h.abandoned records' hmem).1
      rw [hp] at hs
      cases hs
    · rw [← List.mem_singleton.mp hmem] at hl
      cases hl
  · rcases List.mem_append.mp hmem with hmem | hmem
    · exact h.offsets records' offsets ok hmem
    · rw [← List.mem_singleton.mp hmem] at hcommit
      cases hcommit

/-- A silent step within the work on a batch. -/
theorem History.within (h : History ls s) (hpoll : l.polledBatch = none) (hcommit : l.committedBatch = none)
    (habandon : ∀ records, l ≠ .abandon records) (hpolled : t.polled = s.polled)
    (hs : s.phase ≠ .stopped) (hcurrent : t.phase.current = s.phase.current) : History (ls ++ [l]) t :=
  h.silent hpoll hcommit habandon hpolled (fun _ => ⟨hs, hcurrent⟩) (fun hstop => absurd hstop hs)

/-- A silent step outside of it. -/
theorem History.aside (h : History ls s) (hpoll : l.polledBatch = none) (hcommit : l.committedBatch = none)
    (habandon : ∀ records, l ≠ .abandon records) (hpolled : t.polled = s.polled) (hphase : t.phase = s.phase) :
    History (ls ++ [l]) t :=
  h.silent hpoll hcommit habandon hpolled (fun ht => ⟨hphase ▸ ht, by rw [hphase]⟩) (fun hs => hphase.trans hs)

/-- The batch under work is given up. -/
theorem History.abandon (h : History ls s) {records : List Record} (hs : s.phase ≠ .stopped)
    (hcurrent : s.phase.current = [records]) (hpolled : t.polled = s.polled) (ht : t.phase = .stopped) :
    History (ls ++ [.abandon records]) t := by
  have hpolls : (ls ++ [LoopLabel.abandon records]).filterMap LoopLabel.polledBatch
      = ls.filterMap LoopLabel.polledBatch := by simp [LoopLabel.polledBatch]
  have hcommits : (ls ++ [LoopLabel.abandon records]).filterMap LoopLabel.committedBatch
      = ls.filterMap LoopLabel.committedBatch := by simp [LoopLabel.committedBatch]
  have hwork : (ls ++ [LoopLabel.abandon records]).filterMap LoopLabel.polledBatch
      = (ls ++ [LoopLabel.abandon records]).filterMap LoopLabel.committedBatch ++ [records] := by
    rw [hpolls, hcommits, h.working hs, hcurrent]
  refine ⟨by rw [hpolls, hpolled, h.polled], hpolled ▸ h.ascending, hpolls ▸ h.nonempty,
    fun hne => absurd ht hne, ⟨[records], by simp, hwork⟩, fun records' hmem => ?_, ?_⟩
  · rcases List.mem_append.mp hmem with hmem | hmem
    · exact absurd (h.abandoned records' hmem).1 hs
    · cases List.mem_singleton.mp hmem
      exact ⟨ht, hwork⟩
  · intro records' offsets ok hmem
    exact h.offsets records' offsets ok (by simpa using hmem)

/-- The batch under work is committed. -/
theorem History.commit (h : History ls s) {records : List Record} {ok : Bool} (hs : s.phase ≠ .stopped)
    (hcurrent : s.phase.current = [records]) (hpolled : t.polled = s.polled) (ht : t.phase = .polling) :
    History (ls ++ [.commit records (commitOffsets records) ok]) t := by
  have hpolls : (ls ++ [LoopLabel.commit records (commitOffsets records) ok]).filterMap LoopLabel.polledBatch
      = ls.filterMap LoopLabel.polledBatch := by simp [LoopLabel.polledBatch]
  have hcommits : (ls ++ [LoopLabel.commit records (commitOffsets records) ok]).filterMap
      LoopLabel.committedBatch = ls.filterMap LoopLabel.committedBatch ++ [records] := by
    simp [LoopLabel.committedBatch]
  have hwork : (ls ++ [LoopLabel.commit records (commitOffsets records) ok]).filterMap LoopLabel.polledBatch
      = (ls ++ [LoopLabel.commit records (commitOffsets records) ok]).filterMap
        LoopLabel.committedBatch ++ [] := by
    rw [hpolls, hcommits, List.append_nil, h.working hs, hcurrent]
  refine ⟨by rw [hpolls, hpolled, h.polled], hpolled ▸ h.ascending, hpolls ▸ h.nonempty,
    fun _ => by rw [ht]; exact hwork, ⟨[], by simp, hwork⟩, fun records' hmem => ?_,
    fun records' offsets ok' hmem => ?_⟩
  · exact absurd (h.abandoned records' (by simpa using hmem)).1 hs
  · rcases List.mem_append.mp hmem with hmem | hmem
    · exact h.offsets records' offsets ok' hmem
    · cases List.mem_singleton.mp hmem
      rfl

theorem History.step (h : History ls s) (hl : LoopStep c settings s l t) : History (ls ++ [l]) t := by
  cases hl with
  | pollNothing | handlerFlush | handlerSend | handlerFlushRaised | ack | fail | shutdown =>
      exact h.aside rfl rfl (by simp) rfl rfl
  | poll records hp hs hne hasc => exact h.poll rfl rfl hp hne hasc rfl fun _ => rfl
  | pollSkipped records hp hs hne hasc => exact h.poll rfl rfl hp hne hasc rfl fun _ => rfl
  | pollEscape records hp hs hasc hesc =>
      obtain ⟨r, hr, -⟩ := hesc
      exact h.poll rfl rfl hp (List.ne_nil_of_mem hr) hasc rfl fun ht => absurd rfl ht
  | stop hp | dlqEscape records todo hp =>
      exact h.silent rfl rfl (by simp) rfl (fun ht => absurd rfl ht) (fun _ => rfl)
  | handlerEnd records o hp hdec =>
      unfold Loop.finish
      split <;> exact h.within rfl rfl (by simp) rfl (by rw [hp]; simp) (by rw [hp]; rfl)
  | noHandler records hp | sendToDlq records r e todo failedAt enqueued hp | sentToDlq records hp
  | verified records o hp | notVerified records hp | sleep records hp | retry records hp =>
      exact h.within rfl rfl (by simp) rfl (by rw [hp]; simp) (by rw [hp]; rfl)
  | abandon records slept hp hs => exact h.abandon (by rw [hp]; simp) (by rw [hp]; rfl) rfl rfl
  | commit records ok hp => exact h.commit (by rw [hp]; simp) (by rw [hp]; rfl) rfl rfl

/-- Records of two different batches: the earlier one has the smaller offsets. -/
theorem History.lt_of_earlier (h : History ls s) {rest : List (List Record)}
    (hpolls : ls.filterMap LoopLabel.polledBatch = ls.filterMap LoopLabel.committedBatch ++ rest)
    {b b' : List Record} (hb : b ∈ ls.filterMap LoopLabel.committedBatch) (hb' : b' ∈ rest) {r r' : Record}
    (hr : r ∈ b) (hr' : r' ∈ b') (hsame : r.topicPartition = r'.topicPartition) : r.offset < r'.offset := by
  have hasc := h.ascending
  rw [← h.polled, hpolls, List.flatten_append, Ascending, List.pairwise_append] at hasc
  exact hasc.2.2 r (List.mem_flatten_of_mem hb hr) r' (List.mem_flatten_of_mem hb' hr') hsame

/-- A committed offset only passes records of batches for which `commit` was called. -/
theorem History.passed (h : History ls s) {records : List Record} {offsets : String × ℕ → Option ℕ} {ok : Bool}
    (hc : .commit records offsets ok ∈ ls) {b : List Record} (hb : b ∈ ls.filterMap LoopLabel.polledBatch)
    {r : Record} (hr : r ∈ b) {o : ℕ} (ho : offsets r.topicPartition = some o) (hlt : r.offset < o) :
    b ∈ ls.filterMap LoopLabel.committedBatch := by
  obtain ⟨rest, -, hpolls⟩ := h.last
  have hmem : records ∈ ls.filterMap LoopLabel.committedBatch := List.mem_filterMap.mpr ⟨_, hc, rfl⟩
  rw [hpolls] at hb
  refine (List.mem_append.mp hb).resolve_right fun hb => ?_
  have hasc : Ascending records := by
    refine h.ascending.sublist ?_
    rw [← h.polled, hpolls]
    exact List.sublist_flatten_of_mem (List.mem_append_left _ hmem)
  rw [h.offsets _ _ _ hc] at ho
  rcases commitOffsets_spec hasc r.topicPartition with ⟨hnone, -⟩ | ⟨r₀, hr₀, hsame, hsome, -⟩
  · simp [hnone] at ho
  · have hbefore := h.lt_of_earlier hpolls hmem hb hr₀ hr hsame
    rw [hsome, Option.some.injEq] at ho
    omega

/-- A batch that was abandoned is not committed. -/
theorem History.notMem_of_abandoned (h : History ls s) {records : List Record} (ha : .abandon records ∈ ls) :
    records ∉ ls.filterMap LoopLabel.committedBatch := by
  intro hmem
  have hpolls := (h.abandoned records ha).2
  have hne : records ≠ [] := h.nonempty records (by rw [hpolls]; simp)
  obtain ⟨r, hr⟩ := List.exists_mem_of_ne_nil records hne
  exact absurd (h.lt_of_earlier hpolls hmem (by simp) hr hr rfl) (lt_irrefl _)

end

/-! ## The gate -/

/-- A loop that has polled nothing yet. -/
structure Loop.Fresh (s : Loop M) : Prop where
  phase : s.phase = .polling
  polled : s.polled = []
  sent : s.sent = []
  swallowed : s.swallowed = false

theorem Loop.Fresh.history {s : Loop M} (h : s.Fresh) : History [] s where
  polled := by simp [h.polled]
  ascending := by simp [h.polled, Ascending]
  nonempty := by simp
  working := by simp [h.phase, Phase.current]
  last := ⟨[], by simp, by simp⟩
  abandoned := by simp
  offsets := by simp

/-- A step in which a handler that saw its own `flush_and_verify` raise for a message of the attempt does
not return, and raises nothing but a transient exception. -/
def CleanStep (c : Codec) (settings : LoopSettings) (s : Loop M) (l : LoopLabel M) (t : Loop M) : Prop :=
  LoopStep c settings s l t ∧ ∀ o, l = .handlerEnd o → o.transient = false → s.swallowed = false

/-- The handler has not consumed a failure of an attempt that goes on to the gate. -/
def Unswallowed (c : Codec) (s : Loop M) : Prop :=
  match s.phase with
  | .handling records => decodedOf c records = [] → s.swallowed = false
  | .deadLettering .. | .verifying _ | .committing _ => s.swallowed = false
  | _ => True

theorem Unswallowed.congr {s t : Loop M} (h : Unswallowed c s) (hphase : t.phase = s.phase)
    (hsw : t.swallowed = s.swallowed) : Unswallowed c t := by
  unfold Unswallowed at h ⊢
  rw [hphase, hsw]
  exact h

theorem Unswallowed.step {s t : Loop M} {l : LoopLabel M} (h : Unswallowed c s)
    (hl : CleanStep c settings s l t) : Unswallowed c t := by
  obtain ⟨hl, hclean⟩ := hl
  cases hl with
  | pollNothing | handlerFlush | handlerSend | ack | fail | shutdown => exact h.congr rfl rfl
  | poll | retry => exact fun _ => rfl
  | pollSkipped => exact rfl
  | pollEscape | stop | dlqEscape | notVerified | sleep | abandon | commit => trivial
  | handlerFlushRaised records hp hdec =>
      simp only [Unswallowed, hp]
      exact fun hnil => absurd hnil hdec
  | handlerEnd records o hp hdec =>
      unfold Loop.finish
      split
      · trivial
      · rename_i hnot
        exact hclean o rfl (Bool.eq_false_iff.mpr hnot)
  | noHandler records hp hdec =>
      simp only [Unswallowed, hp] at h
      exact h hdec
  | sendToDlq records r e todo failedAt enqueued hp =>
      simp only [Unswallowed, hp] at h
      exact h
  | sentToDlq records hp =>
      simp only [Unswallowed, hp] at h
      exact h
  | verified records o hp =>
      simp only [Unswallowed, hp] at h
      exact h

/-- At the gate the messages of the last attempt are acknowledged exactly if the handler consumed no
failure of it. -/
theorem acked_iff_not_swallowed {s : Loop M} (h : Delivery s) {records : List Record}
    (hp : s.phase = .committing records) :
    (∀ n ∈ s.sent, n ∈ s.producer.acked) ↔ s.swallowed = false := by
  refine ⟨fun hall => ?_, h.gate records hp⟩
  rw [Bool.eq_false_iff]
  intro hsw
  obtain ⟨n, hn, hack, -⟩ := h.lost hsw
  exact hack (hall n hn)

/-- In every run whose handlers ask for a retry when their own `flush_and_verify` fails: whenever
`commit` is called, the messages of the last attempt are acknowledged, every record of the batch was
accepted, skipped or dead-lettered, and the offsets are one past the last record of each partition; no
committed offset passes a polled record of a batch that was not committed so, and an abandoned batch is
not committed. -/
theorem commit_gate {s₀ s : Loop M} {ls : List (LoopLabel M)} (h₀ : s₀.Fresh)
    (h : Run (CleanStep c settings) s₀ ls s) :
    (∀ records offsets ok t, LoopStep c settings s (.commit records offsets ok) t →
      (∀ n ∈ s.sent, n ∈ s.producer.acked) ∧
      (∀ r ∈ records, ∀ v, decodeJson c r.value = .ok (some v) →
        (∃ i, (decodedOf c records)[i]? = some (r, v) ∧ Accepted s i) ∨ DeadLettered s r) ∧
      (∀ r ∈ records, ∀ e, decodeJson c r.value = .error e → DeadLettered s r) ∧
      ∀ tp, (offsets tp = none ∧ ∀ r ∈ records, r.topicPartition ≠ tp) ∨
        ∃ r ∈ records, r.topicPartition = tp ∧ offsets tp = some (r.offset + 1) ∧
          ∀ r' ∈ records, r'.topicPartition = tp → r'.offset ≤ r.offset) ∧
    (∀ records offsets ok, .commit records offsets ok ∈ ls →
      ∀ b ∈ ls.filterMap LoopLabel.polledBatch, ∀ r ∈ b, ∀ o, offsets r.topicPartition = some o →
        r.offset < o → b ∈ ls.filterMap LoopLabel.committedBatch) ∧
    ∀ records, .abandon records ∈ ls → records ∉ ls.filterMap LoopLabel.committedBatch := by
  have hhist : History ls s := h.history h₀.history fun _ _ _ _ hI hstep => hI.step hstep.1
  have hinv : Delivery s ∧ Answered c s ∧ Unswallowed c s :=
    h.invariant (I := fun s => Delivery s ∧ Answered c s ∧ Unswallowed c s)
      ⟨.of_nil h₀.sent h₀.swallowed, by simp [Answered, h₀.phase], by simp [Unswallowed, h₀.phase]⟩
      fun _ _ _ hI hstep => ⟨hI.1.step hstep.1, hI.2.1.step hstep.1, hI.2.2.step hstep⟩
  obtain ⟨hdel, hans, hun⟩ := hinv
  refine ⟨fun records offsets ok t hstep => ?_, fun records offsets ok hc b hb r hr o ho hlt =>
    hhist.passed hc hb hr ho hlt, fun records ha => hhist.notMem_of_abandoned ha⟩
  cases hstep with
  | commit _ _ hp =>
      obtain ⟨hund, hdec⟩ := hans.records hp
      have hsw : s.swallowed = false := by simpa only [Unswallowed, hp] using hun
      have hasc : Ascending records := by
        refine hhist.ascending.sublist ?_
        rw [← hhist.polled, hhist.working (by rw [hp]; simp), hp]
        exact List.sublist_flatten_of_mem (by simp [Phase.current])
      refine ⟨(acked_iff_not_swallowed hdel hp).mpr hsw, fun r hr v hv => ?_, hund,
        fun tp => commitOffsets_spec hasc tp⟩
      have hmem : (r, v) ∈ decodedOf c records := List.mem_filterMap.mpr ⟨r, hr, by simp only [hv]⟩
      obtain ⟨i, hi⟩ := List.mem_iff_getElem?.mp hmem
      exact (hdec i r v hi).imp (fun hacc => ⟨i, hi, hacc⟩) id

namespace LoopSample

/-- Every value decodes to a string. -/
def codec : Codec := ⟨fun _ => .value (.str "x"), fun _ => ""⟩

def detection : LoopSettings := { stage := "detection" }

def record : Record := ⟨"tx-events", 0, 0, none, some [120]⟩

/-- The loop before its first poll. -/
def start : Loop Unit := ⟨.polling, false, 0, ⟨[], [], [], false⟩, [], none, false, {}, []⟩

theorem start_fresh : start.Fresh := ⟨rfl, rfl, rfl, rfl⟩

theorem decodedOf_record : decodedOf codec [record] = [(record, .str "x")] := rfl

theorem polls : LoopStep codec detection start (.poll [record])
    { start.begin [record] with polled := [record], delay := 1 / 2 } := by
  refine .poll [record] rfl rfl (by simp) ?_ ?_ (.inl (by simp [decodedOf_record]))
  · simp [Ascending, start]
  · simp [Escapes, decodeJson, record, codec]

end LoopSample

/-- A handler that sends one message, sees it acknowledged and returns. -/
theorem commit_gate_delivered :
    ∃ ls s t, Run (CleanStep LoopSample.codec LoopSample.detection) LoopSample.start ls s ∧
      LoopStep LoopSample.codec LoopSample.detection s
        (.commit [LoopSample.record] (commitOffsets [LoopSample.record]) true) t ∧
      s.sent = [0] ∧ ∀ n ∈ s.sent, n ∈ s.producer.acked := by
  have hdec : decodedOf LoopSample.codec [LoopSample.record] ≠ [] := by simp [LoopSample.decodedOf_record]
  have hrun : ∃ ls s, Run (CleanStep LoopSample.codec LoopSample.detection) LoopSample.start ls s ∧
      s.phase = .committing [LoopSample.record] ∧ s.sent = [0] :=
    ⟨_, _, .cons ⟨LoopSample.polls, by simp⟩
      (.cons ⟨.handlerSend [LoopSample.record] () true rfl hdec, by simp⟩
      (.cons ⟨.ack 0 (by simp [Loop.send, Producer.send, Loop.begin, Producer.clear, LoopSample.start]), by simp⟩
      (.cons ⟨.handlerFlush [LoopSample.record] rfl hdec rfl rfl, by simp⟩
      (.cons ⟨.handlerEnd [LoopSample.record] (.returned fun _ => none) rfl hdec, fun _ _ _ => rfl⟩
      (.cons ⟨.sentToDlq [LoopSample.record] rfl, by simp⟩
      (.single ⟨.verified [LoopSample.record] (.returned fun _ => none) rfl rfl rfl rfl, by simp⟩)))))),
      rfl, rfl⟩
  obtain ⟨ls, s, h, hp, hsent⟩ := hrun
  have hcommit : LoopStep LoopSample.codec LoopSample.detection s (.commit _ _ true) _ := .commit _ true hp
  exact ⟨ls, s, _, h, hcommit, hsent, ((commit_gate LoopSample.start_fresh h).1 _ _ _ _ hcommit).1⟩

/-- The handler's message fails; its own `flush_and_verify` raises and clears the latch, and what it does
about that raises something else. The batch is dead-lettered and committed, and the message is lost. -/
theorem commit_despite_lost_message :
    ∃ ls s t, Run (LoopStep LoopSample.codec LoopSample.detection) LoopSample.start ls s ∧
      LoopStep LoopSample.codec LoopSample.detection s
        (.commit [LoopSample.record] (commitOffsets [LoopSample.record]) true) t ∧
      s.producer.log[0]? = some (.fromHandler ()) ∧ 0 ∈ s.sent ∧ 0 ∉ s.producer.acked := by
  have hdec : decodedOf LoopSample.codec [LoopSample.record] ≠ [] := by simp [LoopSample.decodedOf_record]
  refine ⟨_, _, _, .cons LoopSample.polls
    (.cons (.handlerSend [LoopSample.record] () true rfl hdec)
    (.cons (.fail 0 (by simp [Loop.send, Producer.send, Loop.begin, Producer.clear, LoopSample.start]))
    (.cons (.handlerFlushRaised [LoopSample.record] rfl hdec rfl rfl)
    (.cons (.handlerEnd [LoopSample.record] (.raised ⟨.other, "ResponseError", "MISCONF"⟩) rfl hdec)
    (.cons (.sendToDlq [LoopSample.record] LoopSample.record ⟨.other, "ResponseError", "MISCONF"⟩ [] "" true rfl)
    (.cons (.ack 1 ?_)
    (.cons (.sentToDlq [LoopSample.record] rfl)
    (.single (.verified [LoopSample.record] (.raised ⟨.other, "ResponseError", "MISCONF"⟩) rfl rfl rfl rfl))))))))),
    .commit [LoopSample.record] true rfl, rfl, ?_, ?_⟩
  all_goals decide

end Rtace
