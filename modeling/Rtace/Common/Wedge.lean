import Rtace.Common.Conservation
import Rtace.Common.Envelope

/-!
# Does a batch ever end?

The loop retries a batch until everything it sent is acknowledged, without a bound on the attempts. With Redis
and the broker healthy and a handler that raises nothing transient, what is left is the size of the dead letters:
if each of them can be delivered, the first attempt is the last; if one cannot, the batch is retried for ever.
-/

namespace Rtace

open Lib

variable {M : Type}

/-! ## A healthy environment -/

/-- The limit on messages. -/
structure Limits (M : Type) where
  /-- `max_request_size` of the producer. -/
  maxRequestSize : ℕ := 1048576
  /-- What the record format adds to key and value. -/
  framing : ℕ
  /-- The serialised size of a message of the handler. -/
  handlerSize : M → ℕ

/-- The broker acknowledges the message. -/
def Limits.Accepts (b : Limits M) : Message M → Prop
  | .fromHandler m => b.handlerSize m ≤ b.maxRequestSize
  | .deadLetter p => b.framing + p.serialisedSize ≤ b.maxRequestSize

/-- What happens while Redis and the broker are healthy and no shutdown is requested: a message is delivered if
it is accepted, and rejected otherwise, at once or later. The handler sends accepted messages only, and ends as
`handler` says. -/
def LoopLabel.Healthy (b : Limits M) (handler : Outcome → Prop) (log : List (Message M)) : LoopLabel M → Prop
  | .handlerSend m enqueued => b.Accepts (.fromHandler m) ∧ enqueued = true
  | .handlerEnd o => handler o
  | .sendToDlq p enqueued => UtcStamp p.failedAt ∧ (b.Accepts (.deadLetter p) → enqueued = true)
  | .ack n => ∃ m, log[n]? = some m ∧ b.Accepts m
  | .fail n => ∃ m, log[n]? = some m ∧ ¬ b.Accepts m
  | .commit .. | .dlqEscape | .shutdown => False
  | _ => True

/-- One step of a call of `_handle_batch_with_retry` in such an environment. -/
def HealthyStep (b : Limits M) (handler : Outcome → Prop) (c : Codec) (settings : LoopSettings) (s : Loop M)
    (l : LoopLabel M) (t : Loop M) : Prop :=
  LoopStep c settings s l t ∧ l.Healthy b handler s.producer.log

def LoopLabel.isRetry : LoopLabel M → Bool
  | .retry => true
  | _ => false

/-- A step that the handler takes before it ends. -/
def LoopLabel.byHandler : LoopLabel M → Bool
  | .handlerSend .. | .handlerFlush _ => true
  | _ => false

/-- The call that stands at `s` returns after finitely many attempts. -/
structure Returns (b : Limits M) (handler : Outcome → Prop) (c : Codec) (settings : LoopSettings)
    (records : List Record) (s : Loop M) : Prop where
  attempts : ∃ N, ∀ ls u, Run (HealthyStep b handler c settings) s ls u → ls.countP LoopLabel.isRetry ≤ N
  /-- There is no way to go on for ever, unless the handler does. -/
  steps : ∃ N, ∀ ls u, Run (HealthyStep b handler c settings) s ls u → ls.length ≤ N + 2 * ls.countP LoopLabel.byHandler
  /-- Before it has returned it can go on. -/
  progress : ∀ ls u, Run (HealthyStep b handler c settings) s ls u →
    u.phase = .committing records ∨ ∃ l v, HealthyStep b handler c settings u l v ∧ l.byHandler = false

/-- The ways in which an attempt can end. -/
def Ends (c : Codec) (records : List Record) (handler : Outcome → Prop) (o : Outcome) : Prop :=
  decodedOf c records ≠ [] ∧ handler o ∨ decodedOf c records = [] ∧ o = .returned fun _ => none

/-- The dead letter of a record can be delivered at any time. -/
def Fits (b : Limits M) (c : Codec) (settings : LoopSettings) (d : Record × Raised) : Prop :=
  b.framing + envelopeSize c settings d.1 d.2 ≤ b.maxRequestSize

/-- Whatever an attempt dead-letters can be delivered. -/
def Deliverable (b : Limits M) (handler : Outcome → Prop) (c : Codec) (settings : LoopSettings)
    (records : List Record) : Prop :=
  ∀ o, Ends c records handler o → ∀ d ∈ dlqOf c records o, Fits b c settings d

section

variable {b : Limits M} {handler : Outcome → Prop} {c : Codec} {settings : LoopSettings} {records : List Record}
  {s t : Loop M} {ls : List (LoopLabel M)} {l : LoopLabel M}

theorem Fits.accepts {r : Record} {e : Raised} {text : String} (h : Fits b c settings (r, e)) (htext : UtcStamp text) :
    b.Accepts (.deadLetter (deadLetterOf c settings text r e)) := by
  have hsize : (deadLetterOf c settings text r e).serialisedSize ≤ envelopeSize c settings r e := serialisedSize_le htext
  exact (Nat.add_le_add_left hsize _).trans h

/-- A value of three quarters of the limit is too large for a dead letter. -/
theorem not_fits {r : Record} {e : Raised} {raw : List UInt8} (h : r.value = some raw) (hne : raw ≠ [])
    (hlarge : b.maxRequestSize ≤ 4 * ((raw.length + 2) / 3)) : ¬ Fits b c settings (r, e) := by
  intro hfits
  have hsmall : b.framing + envelopeSize c settings r e ≤ b.maxRequestSize := hfits
  have hlt : 4 * ((raw.length + 2) / 3) < envelopeSize c settings r e := lt_envelopeSize h hne
  omega

theorem length_dlqOf_le (records : List Record) (o : Outcome) : (dlqOf c records o).length ≤ records.length := by
  have hlength := (perm_classes (c := c) records o).length_eq
  simp only [List.length_append, List.length_map] at hlength
  omega

theorem ends_transient (hhandler : ∀ o, handler o → o.transient = false) {o : Outcome} (h : Ends c records handler o) :
    o.transient = false := by
  rcases h with ⟨-, h⟩ | ⟨-, rfl⟩
  · exact hhandler o h
  · rfl

/-! ## When everything can be delivered -/

/-- Everything in flight will be acknowledged. -/
def Underwritten (b : Limits M) (p : Producer M) : Prop := ∀ n ∈ p.inflight, ∃ m, p.log[n]? = some m ∧ b.Accepts m

theorem Underwritten.send {p : Producer M} (h : Underwritten b p) {m : Message M} (hm : b.Accepts m) :
    Underwritten b (p.send m true) := by
  intro n hn
  simp only [Producer.send, if_true, List.mem_append, List.mem_singleton] at hn
  rcases hn with hn | rfl
  · obtain ⟨m', hm', hacc⟩ := h n hn
    exact ⟨m', getElem?_of_prefix (List.prefix_append _ _) hm', hacc⟩
  · exact ⟨m, by simp [Producer.send], hm⟩

theorem Underwritten.ack {p : Producer M} (h : Underwritten b p) (n : ℕ) : Underwritten b (p.ack n) := fun _ hk =>
  h _ (List.mem_of_mem_filter hk)

/-- An acknowledgement leaves less in flight. -/
theorem length_inflight_ack {p : Producer M} {n : ℕ} (hn : n ∈ p.inflight) :
    (p.ack n).inflight.length + 1 ≤ p.inflight.length :=
  List.length_filter_lt_length_iff_exists.mpr ⟨n, hn, by simp⟩

/-- Where a call stands while nothing has gone wrong, with a bound on the steps `n` it has taken, given the number
`h` of the handler's. What is in flight and what is still to be sent are steps to come. -/
def Smooth (b : Limits M) (c : Codec) (settings : LoopSettings) (records : List Record) (n h : ℕ) (s : Loop M) : Prop :=
  match s.phase with
  | .handling rs => rs = records ∧ s.producer.latch = false ∧ n + s.producer.inflight.length ≤ 2 * h
  | .deadLettering rs todo =>
      rs = records ∧ s.producer.latch = false ∧ s.outcome ≠ none ∧ (∀ d ∈ todo, Fits b c settings d) ∧
        n + s.producer.inflight.length + 2 * todo.length ≤ 2 * h + 1 + 2 * records.length
  | .verifying rs =>
      rs = records ∧ s.producer.latch = false ∧ s.outcome ≠ none ∧
        n + s.producer.inflight.length ≤ 2 * h + 2 + 2 * records.length
  | .committing rs => rs = records ∧ s.producer.inflight = [] ∧ n ≤ 2 * h + 3 + 2 * records.length
  | .polling | .backingOff .. | .stopped => False

theorem Loop.finish_producer (s : Loop M) (c : Codec) (rs : List Record) (o : Outcome) :
    (s.finish c rs o).producer = s.producer := by
  unfold Loop.finish
  split <;> rfl

/-- The end of the handler. -/
theorem Smooth.finish {n h : ℕ} {rs : List Record} {o : Outcome} (hs : Smooth b c settings records n h s)
    (hp : s.phase = .handling rs) (htransient : o.transient = false) (hfits : ∀ d ∈ dlqOf c records o, Fits b c settings d) :
    Smooth b c settings records (n + 1) h (s.finish c rs o) := by
  simp only [Smooth, hp] at hs
  obtain ⟨rfl, hlatch, hn⟩ := hs
  have hlength : (dlqOf c rs o).length ≤ rs.length := length_dlqOf_le rs o
  rw [Loop.finish, htransient]
  refine ⟨rfl, hlatch, by simp, hfits, ?_⟩
  show n + 1 + s.producer.inflight.length + 2 * (dlqOf c rs o).length ≤ _
  omega

/-- The step lemma: if everything can be delivered, no step of the call goes wrong. -/
theorem Smooth.step {n h : ℕ} (hfits : Deliverable b handler c settings records)
    (hhandler : ∀ o, handler o → o.transient = false) (hu : Underwritten b s.producer)
    (hs : Smooth b c settings records n h s) (hl : HealthyStep b handler c settings s l t) :
    Underwritten b t.producer ∧ Smooth b c settings records (n + 1) (h + if l.byHandler then 1 else 0) t ∧
      l.isRetry = false := by
  obtain ⟨hl, hhealthy⟩ := hl
  cases hl with
  | pollNothing hp | poll _ hp | pollSkipped _ hp | stop hp | pollEscape _ hp => simp [Smooth, hp] at hs
  | sleep _ hp | retry _ hp | abandon _ _ hp => simp [Smooth, hp] at hs
  | handlerSend rs m enqueued hp =>
      obtain ⟨hm, rfl⟩ := hhealthy
      simp only [Smooth, hp] at hs
      obtain ⟨rfl, hlatch, hn⟩ := hs
      refine ⟨hu.send hm, ?_, rfl⟩
      simp only [Smooth, Loop.send, hp, Producer.send, hlatch, if_true, List.length_append, List.length_singleton,
        LoopLabel.byHandler, Bool.not_true, Bool.or_false, true_and]
      omega
  | handlerFlush rs hp =>
      refine ⟨hu, ?_, rfl⟩
      simp only [Smooth, hp, LoopLabel.byHandler, if_true] at hs ⊢
      exact ⟨hs.1, hs.2.1, by omega⟩
  | handlerFlushRaised rs hp hdec hflush hlatch => simp [Smooth, hp, hlatch] at hs
  | handlerEnd rs o hp hdec =>
      obtain rfl : rs = records := by
        simp only [Smooth, hp] at hs
        exact hs.1
      refine ⟨?_, hs.finish hp (hhandler o hhealthy) (hfits o (Or.inl ⟨hdec, hhealthy⟩)), rfl⟩
      rw [Loop.finish_producer]
      exact hu
  | noHandler rs hp hdec =>
      obtain rfl : rs = records := by
        simp only [Smooth, hp] at hs
        exact hs.1
      refine ⟨?_, hs.finish hp rfl (hfits _ (Or.inr ⟨hdec, rfl⟩)), rfl⟩
      rw [Loop.finish_producer]
      exact hu
  | sendToDlq rs r e todo failedAt enqueued hp =>
      simp only [Smooth, hp] at hs
      obtain ⟨rfl, hlatch, hout, htodo, hn⟩ := hs
      obtain ⟨htext, henqueued⟩ := hhealthy
      have haccepted : b.Accepts (.deadLetter (deadLetterOf c settings failedAt r e)) :=
        (htodo (r, e) List.mem_cons_self).accepts htext
      obtain rfl := henqueued haccepted
      refine ⟨hu.send haccepted, ⟨rfl, ?_, hout, fun d hd => htodo d (List.mem_cons_of_mem _ hd), ?_⟩, rfl⟩
      · simp [Loop.send, Producer.send, hlatch]
      · simp only [Loop.send, Producer.send, if_true, List.length_append, List.length_singleton, LoopLabel.byHandler]
        rw [List.length_cons] at hn
        simp only [Bool.false_eq_true, if_false]
        omega
  | dlqEscape | shutdown | commit => exact absurd hhealthy id
  | sentToDlq rs hp =>
      simp only [Smooth, hp, List.length_nil] at hs
      refine ⟨hu, ⟨hs.1, hs.2.1, hs.2.2.1, ?_⟩, rfl⟩
      have hn := hs.2.2.2.2
      simp only [LoopLabel.byHandler, Bool.false_eq_true, if_false]
      omega
  | verified rs o hp ho hflush =>
      simp only [Smooth, hp] at hs
      refine ⟨hu, ⟨hs.1, hflush, ?_⟩, rfl⟩
      have hn := hs.2.2.2
      simp only [LoopLabel.byHandler, Bool.false_eq_true, if_false]
      omega
  | notVerified rs hp hflush hlatch => simp [Smooth, hp, hlatch] at hs
  | ack k hk =>
      refine ⟨hu.ack k, ?_, rfl⟩
      have hless := length_inflight_ack hk
      simp only [Smooth, LoopLabel.byHandler, Bool.false_eq_true, if_false] at hs ⊢
      cases hp : s.phase with
      | handling rs =>
          simp only [hp] at hs ⊢
          exact ⟨hs.1, hs.2.1, by omega⟩
      | deadLettering rs todo =>
          simp only [hp] at hs ⊢
          exact ⟨hs.1, hs.2.1, hs.2.2.1, hs.2.2.2.1, by omega⟩
      | verifying rs =>
          simp only [hp] at hs ⊢
          exact ⟨hs.1, hs.2.1, hs.2.2.1, by omega⟩
      | committing rs =>
          simp only [hp] at hs
          rw [hs.2.1] at hk
          cases hk
      | polling | backingOff _ _ | stopped => simp [hp] at hs
  | fail k hk =>
      obtain ⟨m, hm, hrejected⟩ := hhealthy
      obtain ⟨m', hm', haccepted⟩ := hu k hk
      obtain rfl := Option.some.inj (hm.symm.trans hm')
      exact absurd haccepted hrejected

/-- The run lemma. -/
theorem Smooth.run (hfits : Deliverable b handler c settings records) (hhandler : ∀ o, handler o → o.transient = false)
    (hu : Underwritten b s.producer) (hs : Smooth b c settings records 0 0 s)
    (hrun : Run (HealthyStep b handler c settings) s ls t) :
    Underwritten b t.producer ∧ Smooth b c settings records ls.length (ls.countP LoopLabel.byHandler) t ∧
      ls.countP LoopLabel.isRetry = 0 := by
  refine hrun.history (I := fun ls t => Underwritten b t.producer ∧
    Smooth b c settings records ls.length (ls.countP LoopLabel.byHandler) t ∧ ls.countP LoopLabel.isRetry = 0)
    ⟨hu, hs, rfl⟩ fun ls u l v hI hstep => ?_
  obtain ⟨hu', hs', hretry⟩ := hI.2.1.step hfits hhandler hI.1 hstep
  rw [List.length_append, List.countP_append, List.countP_append, List.length_singleton, List.countP_singleton,
    List.countP_singleton]
  exact ⟨hu', hs', by rw [hI.2.2, hretry]; rfl⟩

theorem Smooth.bound {n h : ℕ} (hs : Smooth b c settings records n h s) : n ≤ 3 + 2 * records.length + 2 * h := by
  simp only [Smooth] at hs
  cases hp : s.phase with
  | handling rs | deadLettering rs todo | verifying rs | committing rs =>
      simp only [hp] at hs
      omega
  | polling | backingOff _ _ | stopped => simp [hp] at hs

/-- Before the call has returned there is something to do. -/
theorem Smooth.progress {n h : ℕ} (hends : ∃ o, handler o) (hu : Underwritten b s.producer)
    (hs : Smooth b c settings records n h s) :
    s.phase = .committing records ∨ ∃ l v, HealthyStep b handler c settings s l v ∧ l.byHandler = false := by
  obtain ⟨text, htext, -⟩ := exists_utcStamp
  obtain ⟨o, ho⟩ := hends
  simp only [Smooth] at hs
  cases hp : s.phase with
  | handling rs =>
      refine Or.inr ?_
      by_cases hdec : decodedOf c rs = []
      · exact ⟨_, _, ⟨.noHandler rs hp hdec, trivial⟩, rfl⟩
      · exact ⟨_, _, ⟨.handlerEnd rs o hp hdec, ho⟩, rfl⟩
  | deadLettering rs todo =>
      refine Or.inr ?_
      cases todo with
      | nil => exact ⟨_, _, ⟨.sentToDlq rs hp, trivial⟩, rfl⟩
      | cons d todo =>
          obtain ⟨r, e⟩ := d
          exact ⟨_, _, ⟨.sendToDlq rs r e todo text true hp, htext, fun _ => rfl⟩, rfl⟩
  | verifying rs =>
      simp only [hp] at hs
      obtain ⟨o, hout⟩ := Option.ne_none_iff_exists'.mp hs.2.2.1
      refine Or.inr ?_
      cases hfly : s.producer.inflight with
      | nil => exact ⟨_, _, ⟨.verified rs o hp hout hfly hs.2.1, trivial⟩, rfl⟩
      | cons k inflight =>
          have hk : k ∈ s.producer.inflight := by
            rw [hfly]
            exact List.mem_cons_self
          exact ⟨_, _, ⟨.ack k hk, hu k hk⟩, rfl⟩
  | committing rs =>
      simp only [hp] at hs
      exact Or.inl (by rw [hs.1])
  | polling | backingOff _ _ | stopped => simp [hp] at hs

/-- If everything can be delivered, the call returns after one attempt. -/
theorem Smooth.returns (hfits : Deliverable b handler c settings records) (hhandler : ∀ o, handler o → o.transient = false)
    (hends : ∃ o, handler o) (hu : Underwritten b s.producer) (hs : Smooth b c settings records 0 0 s) :
    Returns b handler c settings records s where
  attempts := ⟨0, fun ls u hrun => (hs.run hfits hhandler hu hrun).2.2.le⟩
  steps := ⟨3 + 2 * records.length, fun ls u hrun => (hs.run hfits hhandler hu hrun).2.1.bound⟩
  progress ls u hrun := by
    obtain ⟨hu', hs', -⟩ := hs.run hfits hhandler hu hrun
    exact hs'.progress hends hu'

/-! ## When something cannot be delivered -/

/-- Between two attempts: nothing is in flight and no shutdown is requested. -/
structure Between (records : List Record) (s : Loop M) : Prop where
  phase : s.phase = .handling records
  settled : s.producer.inflight = []
  up : s.shutdown = false

/-- The dead letters of an attempt can be sent such that one that does not fit leaves the latch set. -/
theorem exists_deadLetters (todo : List (Record × Raised)) (s : Loop M) (hp : s.phase = .deadLettering records todo)
    (hfly : s.producer.inflight = []) (hup : s.shutdown = false) :
    ∃ ls t, Run (HealthyStep b handler c settings) s ls t ∧ t.phase = .verifying records ∧
      t.producer.inflight = [] ∧ t.shutdown = false ∧
      (s.producer.latch = true ∨ (∃ d ∈ todo, ¬ Fits b c settings d) → t.producer.latch = true) := by
  induction todo generalizing s with
  | nil => exact ⟨_, _, .single ⟨.sentToDlq records hp, trivial⟩, rfl, hfly, hup, by simp⟩
  | cons d todo ih =>
      obtain ⟨r, e⟩ := d
      obtain ⟨text, htext, hsize⟩ := exists_serialisedSize c settings r e
      have haccepts : b.Accepts (.deadLetter (deadLetterOf c settings text r e)) ↔ Fits b c settings (r, e) := by
        rw [Fits, ← hsize]
        exact Iff.rfl
      by_cases hfits : Fits b c settings (r, e)
      · -- it is acknowledged at once
        let sent : Loop M := { s.send (.deadLetter (deadLetterOf c settings text r e)) true with
          phase := .deadLettering records todo }
        have hsend : HealthyStep b handler c settings s (.sendToDlq (deadLetterOf c settings text r e) true) sent :=
          ⟨.sendToDlq records r e todo text true hp, htext, fun _ => rfl⟩
        have hmem : s.producer.log.length ∈ sent.producer.inflight := by simp [sent, Loop.send, Producer.send]
        have hack : HealthyStep b handler c settings sent (.ack s.producer.log.length)
            { sent with producer := sent.producer.ack s.producer.log.length } :=
          ⟨.ack _ hmem, _, by simp [sent, Loop.send, Producer.send], haccepts.mpr hfits⟩
        obtain ⟨ls, t, hrun, hphase, hsettled, hshutdown, hlatch⟩ :=
          ih { sent with producer := sent.producer.ack s.producer.log.length } rfl
            (by simp [sent, Loop.send, Producer.send, Producer.ack, hfly]) hup
        refine ⟨_, t, .cons hsend (.cons hack hrun), hphase, hsettled, hshutdown, fun h => hlatch ?_⟩
        rcases h with h | ⟨d, hd, hunfit⟩
        · exact Or.inl (by simp [sent, Loop.send, Producer.send, Producer.ack, h])
        · rcases List.mem_cons.mp hd with rfl | hd
          · exact absurd hfits hunfit
          · exact Or.inr ⟨d, hd, hunfit⟩
      · -- it is rejected at once, and the error is latched
        let rejected : Loop M := { s.send (.deadLetter (deadLetterOf c settings text r e)) false with
          phase := .deadLettering records todo }
        have hsend : HealthyStep b handler c settings s (.sendToDlq (deadLetterOf c settings text r e) false) rejected :=
          ⟨.sendToDlq records r e todo text false hp, htext, fun h => absurd (haccepts.mp h) hfits⟩
        obtain ⟨ls, t, hrun, hphase, hsettled, hshutdown, hlatch⟩ :=
          ih rejected rfl (by simp [rejected, Loop.send, Producer.send, hfly]) hup
        refine ⟨_, t, .cons hsend hrun, hphase, hsettled, hshutdown, fun _ => hlatch (Or.inl ?_)⟩
        simp [rejected, Loop.send, Producer.send]

/-- An attempt whose dead letters do not all fit can be followed by another one. -/
theorem Between.retry {o : Outcome} (h : Between records s) (hends : Ends c records handler o)
    (htransient : o.transient = false) (hunfit : ∃ d ∈ dlqOf c records o, ¬ Fits b c settings d) :
    ∃ ls t, Run (HealthyStep b handler c settings) s ls t ∧ 1 ≤ ls.countP LoopLabel.isRetry ∧ Between records t := by
  have hend : ∃ l, HealthyStep b handler c settings s l (s.finish c records o) := by
    rcases hends with ⟨hdec, ho⟩ | ⟨hdec, rfl⟩
    · exact ⟨_, .handlerEnd records o h.phase hdec, ho⟩
    · exact ⟨_, .noHandler records h.phase hdec, trivial⟩
  obtain ⟨l, hend⟩ := hend
  rw [Loop.finish, htransient] at hend
  let ended : Loop M := { s with outcome := some o, phase := .deadLettering records (dlqOf c records o) }
  obtain ⟨ls, t, hrun, hphase, hsettled, hshutdown, hlatch⟩ :=
    exists_deadLetters (dlqOf c records o) ended rfl h.settled h.up
  have hnot : HealthyStep b handler c settings t (.flushAndVerify true) _ :=
    ⟨.notVerified records hphase hsettled (hlatch (Or.inr hunfit)), trivial⟩
  have hagain := ((hrun.snoc hnot).snoc ⟨.sleep records rfl hshutdown, trivial⟩).snoc ⟨.retry records rfl hshutdown, trivial⟩
  exact ⟨_, _, .cons hend hagain, List.countP_pos_iff.mpr ⟨.retry, by simp, rfl⟩, ⟨rfl, hsettled, hshutdown⟩⟩

/-- So there are calls with any number of attempts. -/
theorem Between.attempts {o : Outcome} (h : Between records s) (hends : Ends c records handler o)
    (htransient : o.transient = false) (hunfit : ∃ d ∈ dlqOf c records o, ¬ Fits b c settings d) (N : ℕ) :
    ∃ ls t, Run (HealthyStep b handler c settings) s ls t ∧ N ≤ ls.countP LoopLabel.isRetry ∧ Between records t := by
  induction N with
  | zero => exact ⟨[], s, .nil, Nat.zero_le _, h⟩
  | succ N ih =>
      obtain ⟨ls, t, hrun, hcount, ht⟩ := ih
      obtain ⟨ls', u, hrun', hcount', hu⟩ := ht.retry hends htransient hunfit
      refine ⟨ls ++ ls', u, hrun.append hrun', ?_, hu⟩
      rw [List.countP_append]
      omega

/-- A call that may have to send a dead letter that does not fit does not return. -/
theorem not_returns {o : Outcome} (h : Between records s) (hends : Ends c records handler o)
    (htransient : o.transient = false) (hunfit : ∃ d ∈ dlqOf c records o, ¬ Fits b c settings d) :
    ¬ Returns b handler c settings records s := by
  intro hreturns
  obtain ⟨N, hN⟩ := hreturns.attempts
  obtain ⟨ls, t, hrun, hcount, -⟩ := h.attempts hends htransient hunfit (N + 1)
  have hle := hN ls t hrun
  omega

/-! ## The call -/

/-- The call gets past decoding exactly if nothing escapes it. -/
theorem exists_entered_iff {s₀ : Loop M} :
    (∃ s, Entered c settings s₀ records s) ↔ ∀ r ∈ records, ¬ Escapes c r := by
  constructor
  · rintro ⟨s, henter⟩
    cases henter with
    | work hdec hwork => exact hdec
    | nothing hdec hund =>
        rintro r hr ⟨e, he, -⟩
        have hmem : (r, e) ∈ undecodableOf c records := mem_undecodableOf.mpr ⟨hr, he⟩
        rw [hund] at hmem
        cases hmem
  · intro hdec
    by_cases hwork : decodedOf c records ≠ [] ∨ undecodableOf c records ≠ []
    · exact ⟨_, .work hdec hwork⟩
    · simp only [not_or, not_not] at hwork
      exact ⟨_, .nothing hwork.1 hwork.2⟩

/-- A call with something to dead-letter starts its first attempt with nothing in flight. -/
theorem Entered.between {s₀ : Loop M} (h : Entered c settings s₀ records s) (hidle : s₀.producer.inflight = [])
    (hup : s₀.shutdown = false) {o : Outcome} (hwork : dlqOf c records o ≠ []) : Between records s := by
  cases h with
  | work => exact ⟨rfl, hidle, hup⟩
  | nothing hdec hund =>
      refine absurd ?_ hwork
      cases o with
      | raised e => simp [dlqOf, hdec, hund]
      | returned failures => simp [dlqOf, hdec, hund]

theorem Entered.smooth {s₀ : Loop M} (h : Entered c settings s₀ records s) (hidle : s₀.producer.inflight = []) :
    Underwritten b s.producer ∧ Smooth b c settings records 0 0 s := by
  cases h with
  | work =>
      refine ⟨?_, rfl, rfl, ?_⟩
      · simp [Underwritten, Loop.begin, Producer.clear, hidle]
      · simp [Loop.begin, Producer.clear, hidle]
  | nothing =>
      refine ⟨?_, rfl, hidle, Nat.zero_le _⟩
      simp [Underwritten, hidle]

end

/-- Between two batches nothing is in flight: the gate has flushed it. -/
def Settled (s : Loop M) : Prop :=
  match s.phase with
  | .polling | .committing _ => s.producer.inflight = []
  | _ => True

theorem Settled.step {c : Codec} {settings : LoopSettings} {s t : Loop M} {l : LoopLabel M} (h : Settled s)
    (hl : LoopStep c settings s l t) : Settled t := by
  cases hl with
  | pollNothing | handlerFlush | shutdown => exact h
  | poll | pollEscape | stop | dlqEscape | sentToDlq | notVerified | sleep | retry | abandon => trivial
  | pollSkipped records hp =>
      simp only [Settled, hp] at h
      exact h
  | handlerSend records m enqueued hp => simp only [Settled, Loop.send, hp]
  | handlerFlushRaised records hp => simp only [Settled, hp]
  | handlerEnd records o hp =>
      unfold Loop.finish
      split <;> trivial
  | noHandler records hp => trivial
  | sendToDlq records r e todo failedAt enqueued hp => trivial
  | verified records o hp ho hflush => exact hflush
  | commit records ok hp =>
      simp only [Settled, hp] at h
      exact h
  | ack n hn | fail n hn =>
      -- nothing can be settled where nothing is in flight
      unfold Settled at h ⊢
      split
      · simp_all
      · simp_all
      · trivial

/-- The loop calls `_handle_batch_with_retry` with nothing in flight. -/
theorem settled_run {c : Codec} {settings : LoopSettings} {s t : Loop M} {ls : List (LoopLabel M)} (h : Settled s)
    (hrun : Run (LoopStep c settings) s ls t) (hp : t.phase = .polling) : t.producer.inflight = [] := by
  have hsettled : Settled t := hrun.invariant h fun _ _ _ hI hstep => hI.step hstep
  simp only [Settled, hp] at hsettled
  exact hsettled

/-- With Redis and the broker healthy, a handler that ends and raises nothing transient, and nothing in flight
before: a call of `_handle_batch_with_retry` returns after finitely many attempts exactly if decoding raises
nothing but `ValueError` and every dead letter that an attempt may have to send can be delivered. -/
theorem batch_returns_iff {b : Limits M} {handler : Outcome → Prop} {c : Codec} {settings : LoopSettings}
    {records : List Record} {s₀ : Loop M} (hidle : s₀.producer.inflight = []) (hup : s₀.shutdown = false)
    (hhandler : ∀ o, handler o → o.transient = false) (hends : ∃ o, handler o) :
    (∃ s, Entered c settings s₀ records s ∧ Returns b handler c settings records s) ↔
      (∀ r ∈ records, ¬ Escapes c r) ∧ Deliverable b handler c settings records := by
  constructor
  · rintro ⟨s, henter, hreturns⟩
    refine ⟨exists_entered_iff.mp ⟨s, henter⟩, fun o ho d hd => ?_⟩
    by_contra hunfit
    have hbetween : Between records s := henter.between hidle hup (List.ne_nil_of_mem hd)
    exact not_returns hbetween ho (ends_transient hhandler ho) ⟨d, hd, hunfit⟩ hreturns
  · rintro ⟨hdec, hfits⟩
    obtain ⟨s, henter⟩ : ∃ s, Entered c settings s₀ records s := exists_entered_iff.mpr hdec
    obtain ⟨hu, hs⟩ := henter.smooth (b := b) hidle
    exact ⟨s, henter, hs.returns hfits hhandler hends hu⟩

namespace LoopSample

/-- `json.loads(raw.decode("utf-8"))` on bytes that are not UTF-8. -/
def byteCodec : Codec where
  loads _ := .malformed "'utf-8' codec can't decode byte 0xff in position 0: invalid start byte"
  decodeReplace _ := ""

/-- A record of `n + 1` such bytes. -/
def poison (n : ℕ) : Record := ⟨"tx-events", 0, 0, none, some (255 :: List.replicate n 255)⟩

def undecodable : Raised :=
  ⟨.valueError, "ValueError",
    "undecodable record value: 'utf-8' codec can't decode byte 0xff in position 0: invalid start byte"⟩

/-- The limits of `create_producer`. -/
def limits : Limits Unit := { framing := 82, handlerSize := fun _ => 0 }

/-- A handler that accepts everything. -/
def accepting (o : Outcome) : Prop := o = .returned fun _ => none

theorem dlqOf_poison (n : ℕ) (o : Outcome) : dlqOf byteCodec [poison n] o = [(poison n, undecodable)] := by
  cases o with
  | raised e => rfl
  | returned failures => rfl

theorem poison_decodes (n : ℕ) : ∀ r ∈ [poison n], ¬ Escapes byteCodec r := by
  simp [Escapes, decodeJson, poison, byteCodec]

end LoopSample

/-- Ten bytes of poison are dead-lettered and committed past. -/
theorem batch_returns_iff_ten :
    ∃ s, Entered LoopSample.byteCodec LoopSample.detection LoopSample.start [LoopSample.poison 9] s ∧
      Returns LoopSample.limits LoopSample.accepting LoopSample.byteCodec LoopSample.detection [LoopSample.poison 9] s := by
  have hhandler : ∀ o, LoopSample.accepting o → o.transient = false := by
    rintro o rfl
    rfl
  refine (batch_returns_iff rfl rfl hhandler ⟨_, rfl⟩).mpr ⟨LoopSample.poison_decodes 9, fun o _ d hd => ?_⟩
  rw [LoopSample.dlqOf_poison, List.mem_singleton] at hd
  rw [hd, Fits]
  decide +kernel

/-- 900000 bytes of poison become 1200000 in base64: the batch is retried for ever. -/
theorem poison_wedges_partition :
    (∃ raw, (LoopSample.poison 899999).value = some raw ∧ raw.length ≤ LoopSample.limits.maxRequestSize) ∧
      ¬ ∃ s, Entered LoopSample.byteCodec LoopSample.detection LoopSample.start [LoopSample.poison 899999] s ∧
        Returns LoopSample.limits LoopSample.accepting LoopSample.byteCodec LoopSample.detection
          [LoopSample.poison 899999] s := by
  have hlength : (255 :: List.replicate 899999 255 : List UInt8).length = 900000 := by
    rw [List.length_cons, List.length_replicate]
  refine ⟨⟨_, rfl, hlength.le.trans (by decide)⟩, ?_⟩
  rintro ⟨s, henter, hreturns⟩
  have hunfit : ¬ Fits LoopSample.limits LoopSample.byteCodec LoopSample.detection
      (LoopSample.poison 899999, LoopSample.undecodable) := by
    refine not_fits rfl (List.cons_ne_nil _ _) ?_
    rw [hlength]
    decide
  have hdlq := LoopSample.dlqOf_poison 899999 (.returned fun _ => none)
  refine not_returns (henter.between rfl rfl (by rw [hdlq]; simp)) (Or.inr ⟨rfl, rfl⟩) rfl ⟨_, ?_, hunfit⟩ hreturns
  rw [hdlq]
  exact List.mem_singleton.mpr rfl

end Rtace
