import Rtace.Common.CommitGate

/-!
# Subscription

The consumer side of `common/kafka_client.py`, as the loop uses it: the consumer polls each of its
partitions from its position on, commits are stored by the broker, and a process that is started anew goes
on from what is stored. `Covered` is what this gives: a record that the stored offset has passed was in
a batch for which `commit` was called, whatever crashed in between.
-/

namespace Rtace

open Lib

variable {M : Type} {c : Codec} {settings : LoopSettings}

/-- A new process: what the broker has acknowledged stays acknowledged, what was in flight is lost. -/
def Loop.relaunch (s : Loop M) : Loop M where
  phase := .polling
  shutdown := false
  delay := 0
  producer := { s.producer with inflight := [], latch := false }
  sent := []
  outcome := none
  swallowed := false
  counters := {}
  polled := []

/-- What the broker holds of each partition, in offset order. -/
structure Topics where
  log : String × ℕ → List Record
  own : ∀ tp, ∀ r ∈ log tp, r.topicPartition = tp
  sorted : ∀ tp, (log tp).Pairwise fun r r' => r.offset < r'.offset

/-- `records` may be polled: of each partition the next ones from the position on. -/
def Topics.Fetched (topics : Topics) (position : String × ℕ → ℕ) (records : List Record) : Prop :=
  ∀ tp, records.filter (·.topicPartition = tp) <+: (topics.log tp).filter (position tp ≤ ·.offset)

/-- The given offsets replace what is there. -/
def advance (offsets : String × ℕ → Option ℕ) (position : String × ℕ → ℕ) : String × ℕ → ℕ :=
  fun tp => (offsets tp).getD (position tp)

/-- A consumer: its loop, its positions, and the offsets that the broker stores for its group. -/
structure Consumer (M : Type) where
  loop : Loop M
  position : String × ℕ → ℕ
  committed : String × ℕ → ℕ

/-- One step of a consumer; `none` is a crash, or the end of a process, and the start of the next. A commit
whose reply is an error may have been stored. -/
inductive ConsumerStep (c : Codec) (settings : LoopSettings) (topics : Topics) (s : Consumer M) :
    Option (LoopLabel M) → Consumer M → Prop
  | poll (l : LoopLabel M) (records : List Record) (t : Loop M) (hl : l.polledBatch = some records)
      (hf : topics.Fetched s.position records) (h : LoopStep c settings s.loop l t) :
      ConsumerStep c settings topics s (some l)
        { s with loop := t, position := advance (commitOffsets records) s.position }
  | commit (records : List Record) (offsets : String × ℕ → Option ℕ) (ok stored : Bool) (t : Loop M)
      (hstored : ok = true → stored = true) (h : LoopStep c settings s.loop (.commit records offsets ok) t) :
      ConsumerStep c settings topics s (some (.commit records offsets ok))
        { s with loop := t, committed := if stored then advance offsets s.committed else s.committed }
  | within (l : LoopLabel M) (t : Loop M) (hpoll : l.polledBatch = none) (hcommit : l.committedBatch = none)
      (h : LoopStep c settings s.loop l t) :
      ConsumerStep c settings topics s (some l) { s with loop := t }
  | relaunch :
      ConsumerStep c settings topics s none { s with loop := s.loop.relaunch, position := s.committed }

theorem ConsumerStep.loopStep {topics : Topics} {s t : Consumer M} {l : LoopLabel M}
    (h : ConsumerStep c settings topics s (some l) t) : LoopStep c settings s.loop l t.loop := by
  cases h with
  | poll _ _ _ _ _ h | commit _ _ _ _ _ _ h | within _ _ _ _ h => exact h

/-! ## What a poll returns -/

/-- In an ascending list a prefix has everything up to its last element. -/
theorem mem_of_prefix_of_le {α : Type} {f : α → ℕ} {p l : List α} (hp : p <+: l)
    (hsorted : l.Pairwise fun a b => f a < f b) {a b : α} (ha : a ∈ p) (hb : b ∈ l) (hle : f b ≤ f a) : b ∈ p := by
  obtain ⟨rest, rfl⟩ := hp
  rcases List.mem_append.mp hb with hb | hb
  · exact hb
  · have hlt : f a < f b := (List.pairwise_append.mp hsorted).2.2 a ha b hb
    omega

variable {topics : Topics} {position : String × ℕ → ℕ} {records : List Record}

theorem Topics.Fetched.mem_log (h : topics.Fetched position records) {r : Record} (hr : r ∈ records) :
    r ∈ topics.log r.topicPartition ∧ position r.topicPartition ≤ r.offset := by
  have hmem : r ∈ records.filter (·.topicPartition = r.topicPartition) := by
    rw [List.mem_filter]
    exact ⟨hr, by simp⟩
  have hlog := (h r.topicPartition).subset hmem
  rw [List.mem_filter] at hlog
  exact ⟨hlog.1, by simpa using hlog.2⟩

/-- Everything between the old and the new position is in the batch. -/
theorem Topics.Fetched.mem (h : topics.Fetched position records) (hasc : Ascending records) {tp : String × ℕ}
    {r : Record} (hr : r ∈ topics.log tp) (hle : position tp ≤ r.offset)
    (hlt : r.offset < advance (commitOffsets records) position tp) : r ∈ records := by
  rcases commitOffsets_spec hasc tp with ⟨hnone, -⟩ | ⟨r₀, hr₀, htp, hsome, -⟩
  · rw [advance, hnone, Option.getD_none] at hlt
    omega
  · rw [advance, hsome, Option.getD_some] at hlt
    have hmem₀ : r₀ ∈ records.filter (·.topicPartition = tp) := by
      rw [List.mem_filter]
      exact ⟨hr₀, by simpa using htp⟩
    have hmem : r ∈ (topics.log tp).filter (position tp ≤ ·.offset) := by
      rw [List.mem_filter]
      exact ⟨hr, by simpa using hle⟩
    have hin := mem_of_prefix_of_le (h tp) ((topics.sorted tp).filter _) hmem₀ hmem (by omega)
    exact (List.mem_filter.mp hin).1

/-- The position passes every record of the batch. -/
theorem lt_advance (hasc : Ascending records) {r : Record} (hr : r ∈ records) :
    r.offset < advance (commitOffsets records) position r.topicPartition := by
  rcases commitOffsets_spec hasc r.topicPartition with ⟨-, hother⟩ | ⟨r₀, -, -, hsome, hmax⟩
  · exact absurd rfl (hother r hr)
  · have hle := hmax r hr rfl
    rw [advance, hsome, Option.getD_some]
    omega

/-! ## Steps of the loop -/

/-- What is handed to the handler is a record of the batch with its value. -/
theorem of_mem_decodedOf {r : Record} {v : Json} (h : (r, v) ∈ decodedOf c records) :
    r ∈ records ∧ decodeJson c r.value = .ok (some v) := by
  obtain ⟨r', hr', hmatch⟩ := List.mem_filterMap.mp h
  split at hmatch
  · rename_i v' hv'
    obtain ⟨rfl, rfl⟩ := Prod.mk.inj (Option.some.inj hmatch)
    exact ⟨hr', hv'⟩
  · cases hmatch

section

variable {s t : Loop M} {l : LoopLabel M}

theorem LoopStep.poll_spec (h : LoopStep c settings s l t) (hl : l.polledBatch = some records) :
    s.phase = .polling ∧ Ascending records ∧ (t.phase = .stopped ∨ t.phase.current = [records]) := by
  have hlast : Ascending (s.polled ++ records) → Ascending records := fun hasc => (List.pairwise_append.mp hasc).2.1
  cases h with
  | poll records' hp hs hne hasc =>
      obtain rfl := Option.some.inj hl
      exact ⟨hp, hlast hasc, .inr rfl⟩
  | pollSkipped records' hp hs hne hasc =>
      obtain rfl := Option.some.inj hl
      exact ⟨hp, hlast hasc, .inr rfl⟩
  | pollEscape records' hp hs hasc =>
      obtain rfl := Option.some.inj hl
      exact ⟨hp, hlast hasc, .inl rfl⟩
  | _ => cases hl

theorem LoopStep.commit_spec {offsets : String × ℕ → Option ℕ} {ok : Bool}
    (h : LoopStep c settings s (.commit records offsets ok) t) :
    s.phase = .committing records ∧ offsets = commitOffsets records ∧ t.phase = .polling := by
  cases h with
  | commit _ _ hp => exact ⟨hp, rfl, rfl⟩

/-- Between poll and commit the batch stays the same, unless the loop stops. -/
theorem LoopStep.current_eq (h : LoopStep c settings s l t) (hpoll : l.polledBatch = none)
    (hcommit : l.committedBatch = none) (ht : t.phase ≠ .stopped) :
    s.phase ≠ .stopped ∧ t.phase.current = s.phase.current := by
  cases h with
  | poll | pollSkipped | pollEscape => cases hpoll
  | commit => cases hcommit
  | stop | dlqEscape | abandon => exact absurd rfl ht
  | pollNothing | handlerFlush | handlerSend | handlerFlushRaised | ack | fail | shutdown => exact ⟨ht, rfl⟩
  | handlerEnd records o hp =>
      refine ⟨by rw [hp]; simp, ?_⟩
      unfold Loop.finish
      rw [hp]
      split <;> rfl
  | noHandler records hp | sendToDlq records r e todo failedAt enqueued hp | sentToDlq records hp
  | verified records o hp | notVerified records hp | sleep records hp | retry records hp =>
      exact ⟨by rw [hp]; simp, by rw [hp]; rfl⟩

end

/-! ## Coverage -/

/-- Every record that the stored offset has passed is `P`; so is every record before the position, or it is
in the batch under work. -/
structure Covered (topics : Topics) (P : Record → Prop) (s : Consumer M) : Prop where
  committed : ∀ tp, ∀ r ∈ topics.log tp, r.offset < s.committed tp → P r
  position : s.loop.phase ≠ .stopped → ∀ tp, ∀ r ∈ topics.log tp, r.offset < s.position tp →
    P r ∨ ∃ records ∈ s.loop.phase.current, r ∈ records
  fetched : ∀ records ∈ s.loop.phase.current, Ascending records ∧ ∀ r ∈ records,
    r ∈ topics.log r.topicPartition ∧ r.offset < s.position r.topicPartition

section

variable {P P' : Record → Prop} {s t : Consumer M}

theorem Covered.mono (h : Covered topics P s) (hmono : ∀ r, P r → P' r) : Covered topics P' s where
  committed tp r hr hlt := hmono r (h.committed tp r hr hlt)
  position hrun tp r hr hlt := (h.position hrun tp r hr hlt).imp (hmono r) id
  fetched := h.fetched

theorem Phase.current_stopped {p : Phase} (h : p = .stopped) : p.current = [] := by
  rw [h]
  rfl

/-- A poll takes over what lies between the old and the new position. -/
theorem Covered.poll (h : Covered topics P s) (hmono : ∀ r, P r → P' r) {l : LoopLabel M} {t : Loop M}
    (hl : l.polledBatch = some records) (hf : topics.Fetched s.position records)
    (hstep : LoopStep c settings s.loop l t) :
    Covered topics P' { s with loop := t, position := advance (commitOffsets records) s.position } := by
  obtain ⟨hpolling, hasc, hphase⟩ := hstep.poll_spec hl
  refine ⟨fun tp r hr hlt => hmono r (h.committed tp r hr hlt), fun hrun tp r hr hlt => ?_, fun records' hmem => ?_⟩
  · by_cases hold : r.offset < s.position tp
    · rcases h.position (by rw [hpolling]; simp) tp r hr hold with hP | ⟨records', hmem, -⟩
      · exact .inl (hmono r hP)
      · rw [hpolling] at hmem
        cases hmem
    · refine .inr ⟨records, ?_, hf.mem hasc hr (by omega) hlt⟩
      rw [hphase.resolve_left hrun]
      exact List.mem_singleton.mpr rfl
  · rcases hphase with hstopped | hcurrent
    · rw [Phase.current_stopped hstopped] at hmem
      cases hmem
    · rw [hcurrent] at hmem
      rw [List.mem_singleton.mp hmem]
      exact ⟨hasc, fun r hr => ⟨(hf.mem_log hr).1, lt_advance hasc hr⟩⟩

/-- A commit covers its batch. -/
theorem Covered.commit (h : Covered topics P s) (hmono : ∀ r, P r → P' r) {offsets : String × ℕ → Option ℕ}
    {ok stored : Bool} {t : Loop M} (hstep : LoopStep c settings s.loop (.commit records offsets ok) t)
    (hbatch : ∀ r ∈ records, P' r) :
    Covered topics P'
      { s with loop := t, committed := if stored then advance offsets s.committed else s.committed } := by
  obtain ⟨hphase, rfl, hpolling⟩ := hstep.commit_spec
  have hrun : s.loop.phase ≠ .stopped := by
    rw [hphase]
    simp
  -- before the position everything was covered, or is covered now
  have hposition : ∀ tp, ∀ r ∈ topics.log tp, r.offset < s.position tp → P' r := by
    intro tp r hr hlt
    rcases h.position hrun tp r hr hlt with hP | ⟨records', hmem, hr'⟩
    · exact hmono r hP
    · rw [hphase] at hmem
      rw [List.mem_singleton.mp hmem] at hr'
      exact hbatch r hr'
  obtain ⟨hasc, hfetched⟩ := h.fetched records (by rw [hphase]; exact List.mem_singleton.mpr rfl)
  refine ⟨fun tp r hr hlt => ?_, fun _ tp r hr hlt => .inl (hposition tp r hr hlt), fun records' hmem => ?_⟩
  · by_cases hold : r.offset < s.committed tp
    · exact hmono r (h.committed tp r hr hold)
    · cases stored with
      | false => exact absurd hlt hold
      | true =>
          rcases commitOffsets_spec hasc tp with ⟨hnone, -⟩ | ⟨r₀, hr₀, htp, hsome, -⟩
          · simp only [if_true, advance, hnone, Option.getD_none] at hlt
            exact absurd hlt hold
          · have hbound := (hfetched r₀ hr₀).2
            rw [htp] at hbound
            simp only [if_true, advance, hsome, Option.getD_some] at hlt
            exact hposition tp r hr (by omega)
  · rw [hpolling] at hmem
    cases hmem

theorem Covered.within (h : Covered topics P s) (hmono : ∀ r, P r → P' r) {l : LoopLabel M} {t : Loop M}
    (hpoll : l.polledBatch = none) (hcommit : l.committedBatch = none) (hstep : LoopStep c settings s.loop l t) :
    Covered topics P' { s with loop := t } := by
  refine ⟨fun tp r hr hlt => hmono r (h.committed tp r hr hlt), fun hrun tp r hr hlt => ?_, fun records' hmem => ?_⟩
  · obtain ⟨hrun', hcurrent⟩ := hstep.current_eq hpoll hcommit hrun
    rw [hcurrent]
    exact (h.position hrun' tp r hr hlt).imp (hmono r) id
  · by_cases hstopped : t.phase = .stopped
    · rw [Phase.current_stopped hstopped] at hmem
      cases hmem
    · obtain ⟨-, hcurrent⟩ := hstep.current_eq hpoll hcommit hstopped
      rw [hcurrent] at hmem
      exact h.fetched records' hmem

/-- The next process starts where the stored offsets are. -/
theorem Covered.relaunch (h : Covered topics P s) (hmono : ∀ r, P r → P' r) :
    Covered topics P' { s with loop := s.loop.relaunch, position := s.committed } where
  committed tp r hr hlt := hmono r (h.committed tp r hr hlt)
  position _ tp r hr hlt := .inl (hmono r (h.committed tp r hr hlt))
  fetched _ hmem := by cases hmem

/-- Coverage is kept by every step, if what a commit closes is covered. -/
theorem Covered.step (h : Covered topics P s) {l : Option (LoopLabel M)} (hl : ConsumerStep c settings topics s l t)
    (hmono : ∀ r, P r → P' r)
    (hbatch : ∀ records offsets ok, l = some (.commit records offsets ok) → ∀ r ∈ records, P' r) :
    Covered topics P' t := by
  cases hl with
  | poll l records t hl hf hstep => exact h.poll hmono hl hf hstep
  | commit records offsets ok stored t hstored hstep => exact h.commit hmono hstep (hbatch _ _ _ rfl)
  | within l t hpoll hcommit hstep => exact h.within hmono hpoll hcommit hstep
  | relaunch => exact h.relaunch hmono

/-- Nothing has been polled or committed. -/
theorem Covered.start (hphase : s.loop.phase = .polling) (hposition : ∀ tp, s.position tp = 0)
    (hcommitted : ∀ tp, s.committed tp = 0) : Covered topics P s where
  committed tp r _ hlt := by
    rw [hcommitted] at hlt
    omega
  position _ tp r _ hlt := by
    rw [hposition] at hlt
    omega
  fetched records hmem := by
    rw [hphase] at hmem
    cases hmem

end

end Rtace
