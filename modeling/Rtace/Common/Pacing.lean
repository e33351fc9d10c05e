import Rtace.Common.Wedge

/-!
# How long the loop waits, and how it stops

Between two attempts of a batch the loop sleeps, twice as long each time up to a limit, and for each batch it starts
again. Once shutdown is requested it neither polls nor sleeps nor tries again: it finishes the attempt under way,
commits or abandons its batch, and stops, after a number of steps that the batch bounds.
-/

namespace Rtace

open Lib

section

variable {M : Type} {c : Codec} {settings : LoopSettings} {s t : Loop M} {l : LoopLabel M} {ls : List (LoopLabel M)}

/-! ## Backoff -/

/-- The pause after the attempt with this number, from zero. -/
def backoffSeconds (settings : LoopSettings) : ℕ → ℚ
  | 0 => settings.retryInitialSeconds
  | n + 1 => min (settings.retryInitialSeconds * 2 ^ (n + 1)) settings.retryMaxSeconds

/-- The next pause is twice this one, up to the limit. -/
theorem backoffSeconds_succ (hmax : 0 ≤ settings.retryMaxSeconds) (n : ℕ) :
    backoffSeconds settings (n + 1) = min (backoffSeconds settings n * 2) settings.retryMaxSeconds := by
  cases n with
  | zero => simp [backoffSeconds]
  | succ n =>
      have hdouble : settings.retryMaxSeconds ≤ settings.retryMaxSeconds * 2 := by linarith
      calc min (settings.retryInitialSeconds * 2 ^ (n + 2)) settings.retryMaxSeconds
          = min (settings.retryInitialSeconds * 2 ^ (n + 1) * 2) settings.retryMaxSeconds := by rw [pow_succ, mul_assoc]
        _ = min (min (settings.retryInitialSeconds * 2 ^ (n + 1) * 2) (settings.retryMaxSeconds * 2))
              settings.retryMaxSeconds := by rw [min_assoc, min_eq_right hdouble]
        _ = min (backoffSeconds settings (n + 1) * 2) settings.retryMaxSeconds := by
            rw [backoffSeconds, min_mul_of_nonneg _ _ (by norm_num : (0 : ℚ) ≤ 2)]

/-- The pauses since the last poll, one label later. -/
def LoopLabel.pauses (n : ℕ) : LoopLabel M → ℕ
  | .poll _ => 0
  | .sleep _ => n + 1
  | _ => n

/-- The pauses since the last poll. -/
def pausesOf (ls : List (LoopLabel M)) : ℕ := ls.foldl LoopLabel.pauses 0

theorem pausesOf_snoc (ls : List (LoopLabel M)) (l : LoopLabel M) : pausesOf (ls ++ [l]) = l.pauses (pausesOf ls) := by
  simp [pausesOf]

/-- How the delay goes with the pauses of the batch so far. -/
def Paced (settings : LoopSettings) (ls : List (LoopLabel M)) (s : Loop M) : Prop :=
  match s.phase with
  | .handling _ | .deadLettering .. | .verifying _ | .backingOff _ false =>
      s.delay = backoffSeconds settings (pausesOf ls)
  | .backingOff _ true => ∃ n, pausesOf ls = n + 1 ∧ s.delay = backoffSeconds settings n
  | .polling | .committing _ | .stopped => True

theorem Paced.congr (h : Paced settings ls s) (hl : ∀ n, l.pauses n = n) (hphase : t.phase = s.phase)
    (hdelay : t.delay = s.delay) : Paced settings (ls ++ [l]) t := by
  unfold Paced at h ⊢
  rw [hphase, hdelay, pausesOf_snoc, hl]
  exact h

/-- The delay of an attempt, through a step that is no pause. -/
theorem Paced.delay_eq (h : Paced settings ls s) (hattempt : s.phase.attempting) (hl : ∀ n, l.pauses n = n) :
    s.delay = backoffSeconds settings (pausesOf (ls ++ [l])) := by
  rw [pausesOf_snoc, hl]
  cases hp : s.phase with
  | handling | deadLettering | verifying =>
      simp only [Paced, hp] at h
      exact h
  | polling | backingOff | committing | stopped =>
      rw [hp] at hattempt
      cases hattempt

theorem Paced.step (hmax : 0 ≤ settings.retryMaxSeconds) (h : Paced settings ls s) (hl : LoopStep c settings s l t) :
    Paced settings (ls ++ [l]) t := by
  cases hl with
  | pollNothing | handlerFlush | handlerFlushRaised | handlerSend | ack | fail | shutdown =>
      exact h.congr (fun _ => rfl) rfl rfl
  | poll records =>
      show settings.retryInitialSeconds = backoffSeconds settings (pausesOf (ls ++ [.poll records]))
      rw [pausesOf_snoc]
      rfl
  | pollSkipped | pollEscape | stop | dlqEscape | verified | abandon | commit => trivial
  | handlerEnd records o hp hdec =>
      have hdelay := h.delay_eq (l := .handlerEnd o) (by rw [hp]; rfl) fun _ => rfl
      unfold Loop.finish
      split
      · exact hdelay
      · exact hdelay
  | noHandler records hp hdec => exact h.delay_eq (l := .noHandler) (by rw [hp]; rfl) fun _ => rfl
  | sendToDlq records r e todo failedAt enqueued hp =>
      exact h.delay_eq (l := .sendToDlq (deadLetterOf c settings failedAt r e) enqueued) (by rw [hp]; rfl) fun _ => rfl
  | sentToDlq records hp => exact h.delay_eq (l := .sentToDlq) (by rw [hp]; rfl) fun _ => rfl
  | notVerified records hp hflush hlatch =>
      exact h.delay_eq (l := .flushAndVerify true) (by rw [hp]; rfl) fun _ => rfl
  | sleep records hp hs =>
      refine ⟨pausesOf ls, ?_, ?_⟩
      · rw [pausesOf_snoc]
        rfl
      · simpa only [Paced, hp] using h
  | retry records hp hs =>
      simp only [Paced, hp] at h
      obtain ⟨n, hn, hdelay⟩ := h
      show min (s.delay * 2) settings.retryMaxSeconds = backoffSeconds settings (pausesOf (ls ++ [.retry]))
      rw [pausesOf_snoc, hdelay, ← backoffSeconds_succ hmax, ← hn]
      rfl

/-- In every run, the pause after the attempt with number `n` of its batch takes the initial time doubled `n` times, up
to the limit; and it is slept only while no shutdown is requested. -/
theorem backoff_schedule {s₀ : Loop M} {seconds : ℚ} (hmax : 0 ≤ settings.retryMaxSeconds) (h₀ : s₀.phase = .polling)
    (h : Run (LoopStep c settings) s₀ (ls ++ [.sleep seconds]) t) :
    seconds = backoffSeconds settings (pausesOf ls) ∧ t.shutdown = false := by
  obtain ⟨s, hrun, hsleep⟩ := h.last
  have hpaced : Paced settings ls s :=
    hrun.history (I := Paced settings) (by simp [Paced, h₀]) fun _ _ _ _ hI hstep => hI.step hmax hstep
  cases hsleep with
  | sleep records hp hs =>
      simp only [Paced, hp] at hpaced
      exact ⟨hpaced, hs⟩

end

namespace LoopSample

/-- Redis does not answer. -/
def unreachable : Outcome := .raised ⟨.redisTransient, "ConnectionError", ""⟩

theorem decoded_ne_nil : decodedOf codec [record] ≠ [] := by simp [decodedOf_record]

/-- Two attempts fail, and the second pause is slept. -/
theorem slept_twice : ∃ ls seconds t, Run (LoopStep codec detection) start (ls ++ [.sleep seconds]) t ∧ pausesOf ls = 1 :=
  ⟨_, _, _, .snoc (.cons polls (.cons (.handlerEnd [record] unreachable rfl decoded_ne_nil)
    (.cons (.sleep [record] rfl rfl) (.cons (.retry [record] rfl rfl)
      (.single (.handlerEnd [record] unreachable rfl decoded_ne_nil)))))) (.sleep [record] rfl rfl), rfl⟩

end LoopSample

/-- The second pause takes a second. -/
theorem backoff_schedule_second :
    ∃ ls t, Run (LoopStep LoopSample.codec LoopSample.detection) LoopSample.start (ls ++ [.sleep 1]) t ∧
      pausesOf ls = 1 := by
  obtain ⟨ls, seconds, t, hrun, hpauses⟩ := LoopSample.slept_twice
  have hseconds := (backoff_schedule (by decide) rfl hrun).1
  rw [hpauses] at hseconds
  have hone : seconds = 1 := by
    rw [hseconds]
    norm_num [backoffSeconds, LoopSample.detection]
  exact ⟨ls, t, hone ▸ hrun, hpauses⟩

section

variable {M : Type} {c : Codec} {settings : LoopSettings} {s t : Loop M} {l : LoopLabel M} {ls : List (LoopLabel M)}

/-! ## Shutdown -/

/-- What is left to do at most, once shutdown is requested. -/
def Phase.remaining : Phase → ℕ
  | .handling records => 5 + records.length
  | .deadLettering _ todo => 4 + todo.length
  | .verifying _ => 3
  | .committing _ => 2
  | .polling | .backingOff .. => 1
  | .stopped => 0

end

end Rtace
