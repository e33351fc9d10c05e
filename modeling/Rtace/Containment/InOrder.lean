import Rtace.Containment.Consumer

/-!
# Containment happens once and in log order

Retries, redelivery after a crash and lost replies make the engine call `apply_containment` again and
again for the same record. While receipts live this is invisible: of each partition the detections are
contained in the order of the log, each id once, and never fewer than what the stored offset has passed.
`InOrder` says it with a frontier: everything before the frontier of a partition has been contained,
nothing behind it has.
-/

namespace Rtace.Containment

open Lib Redis

/-! ## The ids of a log -/

namespace Setup

variable (e : Setup)

/-- The detection id of a record whose detection is of a known type. -/
def idOf (r : Record) : Option String :=
  (e.detectionOf r).bind fun d => if Known d.detectionType then some d.detectionId else none

/-- The detection ids of records, in order. -/
def ids (records : List Record) : List String := records.filterMap e.idOf

/-- The records of a partition before an offset. -/
def below (tp : String × ℕ) (n : ℕ) : List Record := (e.topics.log tp).filter (·.offset < n)

/-- No two partitions share a detection id: detections are keyed by user, and an id is of one user. -/
def Unshared : Prop :=
  ∀ tp tp' i, i ∈ e.ids (e.topics.log tp) → i ∈ e.ids (e.topics.log tp') → tp = tp'

variable {e}

theorem ids_below_eq (tp : String × ℕ) (n : ℕ) :
    e.ids (e.below tp n) = (e.topics.log tp).filterMap fun r => if r.offset < n then e.idOf r else none := by
  simp [ids, below, List.filterMap_filter]

/-- Records without an id may be passed. -/
theorem ids_below_congr {tp : String × ℕ} {n m : ℕ} (hle : n ≤ m)
    (h : ∀ r ∈ e.topics.log tp, n ≤ r.offset → r.offset < m → e.idOf r = none) :
    e.ids (e.below tp m) = e.ids (e.below tp n) := by
  rw [ids_below_eq, ids_below_eq]
  refine List.filterMap_congr fun r hr => ?_
  by_cases hn : r.offset < n
  · rw [if_pos hn, if_pos (by omega)]
  · rw [if_neg hn]
    split
    · exact h r hr (by omega) (by omega)
    · rfl

/-- One more record. -/
theorem below_succ {r : Record} (hr : r ∈ e.topics.log r.topicPartition) :
    e.below r.topicPartition (r.offset + 1) = e.below r.topicPartition r.offset ++ [r] := by
  obtain ⟨before, after, hsplit⟩ := List.append_of_mem hr
  have hsorted := e.topics.sorted r.topicPartition
  rw [hsplit, List.pairwise_append, List.pairwise_cons] at hsorted
  obtain ⟨-, ⟨hafter, -⟩, hbefore⟩ := hsorted
  have hlt : ∀ r' ∈ before, r'.offset < r.offset := fun r' hr' => hbefore r' hr' r (by simp)
  have hkeep : ∀ n, r.offset ≤ n → before.filter (fun r' => decide (r'.offset < n)) = before := by
    intro n hn
    refine List.filter_eq_self.mpr fun r' hr' => decide_eq_true ?_
    exact lt_of_lt_of_le (hlt r' hr') hn
  have hdrop : ∀ n, n ≤ r.offset + 1 → after.filter (fun r' => decide (r'.offset < n)) = [] := by
    intro n hn
    refine List.filter_eq_nil_iff.mpr fun r' hr' => ?_
    have hgt := hafter r' hr'
    simp only [decide_eq_true_eq]
    omega
  simp only [below, hsplit, List.filter_append, List.filter_cons]
  rw [hkeep _ (by omega), hkeep _ le_rfl, hdrop _ le_rfl, hdrop _ (by omega)]
  simp

/-- What lies before an offset is an initial part of the log. -/
theorem below_append (tp : String × ℕ) (n : ℕ) :
    ∃ rest, e.topics.log tp = e.below tp n ++ rest := by
  have hsorted := e.topics.sorted tp
  unfold below
  generalize e.topics.log tp = log at hsorted
  induction log with
  | nil => exact ⟨[], rfl⟩
  | cons r log ih =>
      rw [List.pairwise_cons] at hsorted
      obtain ⟨hlater, hrest⟩ := hsorted
      by_cases hr : r.offset < n
      · obtain ⟨rest, hsplit⟩ := ih hrest
        refine ⟨rest, ?_⟩
        rw [List.filter_cons, if_pos (by simpa using hr), List.cons_append, ← hsplit]
      · refine ⟨r :: log, ?_⟩
        have hnil : log.filter (fun r' => decide (r'.offset < n)) = [] := by
          refine List.filter_eq_nil_iff.mpr fun r' hr' => ?_
          have hgt := hlater r' hr'
          simp only [decide_eq_true_eq]
          omega
        rw [List.filter_cons, if_neg (by simpa using hr), hnil, List.nil_append]

theorem mem_ids {r : Record} {records : List Record} {i : String} (hr : r ∈ records) (hi : e.idOf r = some i) :
    i ∈ e.ids records :=
  List.mem_filterMap.mpr ⟨r, hr, hi⟩

theorem exists_of_mem_ids {records : List Record} {i : String} (h : i ∈ e.ids records) :
    ∃ r ∈ records, ∃ d, e.detectionOf r = some d ∧ d.detectionId = i := by
  obtain ⟨r, hr, hid⟩ := List.mem_filterMap.mp h
  obtain ⟨d, hd, hif⟩ := Option.bind_eq_some_iff.mp hid
  split at hif
  · exact ⟨r, hr, d, hd, Option.some.inj hif⟩
  · cases hif

theorem idOf_known {r : Record} {d : DetectionEvent} (hd : e.detectionOf r = some d) (hk : Known d.detectionType) :
    e.idOf r = some d.detectionId := by
  simp [idOf, hd, hk]

theorem idOf_unknown {r : Record} {d : DetectionEvent} (hd : e.detectionOf r = some d)
    (hk : ¬ Known d.detectionType) : e.idOf r = none := by
  simp [idOf, hd, hk]

/-- A record with an id is handed to the handler. -/
theorem mem_decodedOf {r : Record} {records : List Record} {i : String} (hr : r ∈ records) (hi : e.idOf r = some i) :
    ∃ v, (r, v) ∈ decodedOf e.codec records := by
  simp only [idOf, detectionOf] at hi
  split at hi
  · rename_i v hv
    exact ⟨v, List.mem_filterMap.mpr ⟨r, hr, by rw [hv]⟩⟩
  · simp at hi

theorem detectionOf_decoded {r : Record} {records : List Record} {v : Json} {d : DetectionEvent}
    (hr : (r, v) ∈ decodedOf e.codec records) (hv : e.validate v = .ok d) : e.detectionOf r = some d := by
  simp [detectionOf, (of_mem_decodedOf hr).2, hv, Except.toOption]

theorem idOf_invalid {r : Record} {records : List Record} {v : Json} {x : Raised}
    (hr : (r, v) ∈ decodedOf e.codec records) (hv : e.validate v = .error x) : e.idOf r = none := by
  simp [idOf, detectionOf, (of_mem_decodedOf hr).2, hv, Except.toOption]

end Setup

/-- Later records of a partition come later in the batch. -/
theorem index_lt_of_offset_lt {c : Codec} {records : List Record} (hasc : Ascending records) {i j : ℕ} {r r' : Record}
    {v v' : Json} (hi : (decodedOf c records)[i]? = some (r, v)) (hj : (decodedOf c records)[j]? = some (r', v'))
    (hsame : r'.topicPartition = r.topicPartition) (hlt : r'.offset < r.offset) : j < i := by
  have hdec : (decodedOf c records).Pairwise fun a b => a.1.topicPartition = b.1.topicPartition → a.1.offset < b.1.offset := by
    refine List.Pairwise.filterMap _ ?_ hasc
    intro a b hab x hx y hy
    split at hx
    · split at hy
      · rw [← Option.some.inj hx, ← Option.some.inj hy]
        exact hab
      · cases hy
    · cases hx
  by_contra hge
  rcases Nat.lt_or_eq_of_le (Nat.le_of_not_lt hge) with hij | rfl
  · obtain ⟨hi', hi⟩ := List.getElem?_eq_some_iff.mp hi
    obtain ⟨hj', hj⟩ := List.getElem?_eq_some_iff.mp hj
    have horder := List.pairwise_iff_getElem.mp hdec i j hi' hj' hij
    rw [hi, hj] at horder
    exact absurd (horder hsame.symm) (Nat.lt_asymm hlt)
  · rw [hi] at hj
    obtain ⟨rfl, -⟩ := Prod.mk.inj (Option.some.inj hj)
    omega

/-! ## The frontier -/

/-- How many records of the batch the handler has dealt with. -/
def Progress.reached : Progress → ℕ
  | .idle => 0
  | .working next _ => next
  | .auditing next _ _ _ => next + 1

/-- The batch after the handler has returned. -/
def handledBatch : Phase → Option (List Record)
  | .deadLettering records _ | .verifying records | .committing records => some records
  | _ => none

/-- The ids that calls for records of the partition have written rules for, in order. -/
def appliedIn (tp : String × ℕ) (ls : List WorkLabel) : List String :=
  ls.filterMap fun l =>
    match l with
    | .call r d true _ => if r.topicPartition = tp then some d.detectionId else none
    | _ => none

/-- Everything before the frontier `f` of a partition has been contained, in order and once each; nothing
else has. -/
structure InOrder (e : Setup) (f : String × ℕ → ℕ) (ls : List WorkLabel) (s : Worker) : Prop where
  covered : Covered e.topics (fun r => r.offset < f r.topicPartition) s.consumer
  engaged : s.Engaged e
  applied : ∀ tp, appliedIn tp ls = (e.ids (e.below tp (f tp))).eraseDups
  receipts : ∀ tp, ∀ i ∈ e.ids (e.topics.log tp), receipt s.server.db i ≠ none ↔ i ∈ e.ids (e.below tp (f tp))
  behind : ∀ records, s.phase = .handling records → ∀ j < s.progress.reached, ∀ r v,
    (decodedOf e.codec records)[j]? = some (r, v) → r.offset < f r.topicPartition
  handled : ∀ records, handledBatch s.phase = some records → ∀ r v, (r, v) ∈ decodedOf e.codec records →
    r.offset < f r.topicPartition

/-- A step in which no call of `apply_containment` fails for good and no receipt of the topics expires. -/
def SmoothStep (e : Setup) (s : Worker) (l : WorkLabel) (t : Worker) : Prop :=
  WorkStep e s l t ∧ (∀ r d wrote, l ≠ .call r d wrote .failed) ∧
    (l = .tick → ∀ tp, ∀ i ∈ e.ids (e.topics.log tp), receipt s.server.db i ≠ none → receipt t.server.db i ≠ none)

/-- The frontier passes the record `r`. -/
def pass (f : String × ℕ → ℕ) (r : Record) : String × ℕ → ℕ :=
  Function.update f r.topicPartition (max (f r.topicPartition) (r.offset + 1))

theorem pass_self (f : String × ℕ → ℕ) (r : Record) :
    pass f r r.topicPartition = max (f r.topicPartition) (r.offset + 1) :=
  Function.update_self ..

theorem pass_of_ne (f : String × ℕ → ℕ) {r : Record} {tp : String × ℕ} (h : tp ≠ r.topicPartition) :
    pass f r tp = f tp :=
  Function.update_of_ne h ..

theorem le_pass (f : String × ℕ → ℕ) (r : Record) (tp : String × ℕ) : f tp ≤ pass f r tp := by
  by_cases h : tp = r.topicPartition
  · rw [h, pass_self]
    exact le_max_left ..
  · rw [pass_of_ne f h]

section

variable {e : Setup} {f f' : String × ℕ → ℕ} {ls : List WorkLabel} {s t : Worker} {l : WorkLabel}

/-- The frontier may pass records without an id. -/
theorem InOrder.widen (h : InOrder e f ls s) (hle : ∀ tp, f tp ≤ f' tp)
    (hids : ∀ tp, e.ids (e.below tp (f' tp)) = e.ids (e.below tp (f tp))) : InOrder e f' ls s where
  covered := h.covered.mono fun r hr => lt_of_lt_of_le hr (hle _)
  engaged := h.engaged
  applied tp := by
    rw [hids]
    exact h.applied tp
  receipts tp i hi := by
    rw [hids]
    exact h.receipts tp i hi
  behind records hp j hj r v hr := lt_of_lt_of_le (h.behind records hp j hj r v hr) (hle _)
  handled records hp r v hr := lt_of_lt_of_le (h.handled records hp r v hr) (hle _)

/-- A step that leaves the consumer and the receipts alone. -/
theorem InOrder.quiet (h : InOrder e f ls s) (hl : ∀ tp, appliedIn tp (ls ++ [l]) = appliedIn tp ls)
    (hconsumer : t.consumer = s.consumer) (hengaged : t.Engaged e)
    (hdb : ∀ tp, ∀ i ∈ e.ids (e.topics.log tp), receipt t.server.db i ≠ none ↔ receipt s.server.db i ≠ none)
    (hbehind : ∀ records, s.phase = .handling records → ∀ j < t.progress.reached, s.progress.reached ≤ j →
      ∀ r v, (decodedOf e.codec records)[j]? = some (r, v) → r.offset < f r.topicPartition) :
    InOrder e f (ls ++ [l]) t where
  covered := by
    rw [hconsumer]
    exact h.covered
  engaged := hengaged
  applied tp := by
    rw [hl]
    exact h.applied tp
  receipts tp i hi := (hdb tp i hi).trans (h.receipts tp i hi)
  behind records hp j hj r v hr := by
    rw [Worker.phase, hconsumer] at hp
    by_cases hold : j < s.progress.reached
    · exact h.behind records hp j hold r v hr
    · exact hbehind records hp j hj (Nat.le_of_not_lt hold) r v hr
  handled records hp := by
    rw [Worker.phase, hconsumer] at hp
    exact h.handled records hp

/-- Between the frontier and the record the handler is at there is no id. -/
theorem InOrder.idOf_between (h : InOrder e f ls s) {records : List Record} (hp : s.phase = .handling records)
    {r : Record} {v : Json} (hi : (decodedOf e.codec records)[s.progress.reached]? = some (r, v)) {r' : Record}
    (hr' : r' ∈ e.topics.log r.topicPartition) (hge : f r.topicPartition ≤ r'.offset) (hlt : r'.offset < r.offset) :
    e.idOf r' = none := by
  have hrecords : records ∈ s.consumer.loop.phase.current := by
    rw [show s.consumer.loop.phase = .handling records from hp]
    exact List.mem_singleton.mpr rfl
  obtain ⟨hasc, hfetched⟩ := h.covered.fetched records hrecords
  have hr : r ∈ records := (of_mem_decodedOf (List.mem_of_getElem? hi)).1
  have hposition := (hfetched r hr).2
  have hown : r'.topicPartition = r.topicPartition := e.topics.own _ r' hr'
  -- it is in the batch, and so the handler has been there
  have hbatch : r' ∈ records := by
    have hrun : s.consumer.loop.phase ≠ .stopped := by
      rw [show s.consumer.loop.phase = .handling records from hp]
      simp
    rcases h.covered.position hrun _ r' hr' (by omega) with hbelow | ⟨records', hmem, hin⟩
    · rw [hown] at hbelow
      omega
    · rw [show s.consumer.loop.phase = .handling records from hp] at hmem
      rwa [List.mem_singleton.mp hmem] at hin
  by_contra hsome
  obtain ⟨i, hi'⟩ := Option.ne_none_iff_exists'.mp hsome
  obtain ⟨v', hmem⟩ := Setup.mem_decodedOf hbatch hi'
  obtain ⟨j, hj⟩ := List.mem_iff_getElem?.mp hmem
  have hbefore := index_lt_of_offset_lt hasc hi hj hown hlt
  have hbelow := h.behind records hp j hbefore r' v' hj
  rw [hown] at hbelow
  omega

/-- The ids before the frontier when it passes the record the handler is at. -/
theorem InOrder.ids_pass (h : InOrder e f ls s) {records : List Record} (hp : s.phase = .handling records)
    {r : Record} {v : Json} (hi : (decodedOf e.codec records)[s.progress.reached]? = some (r, v))
    (hr : r ∈ e.topics.log r.topicPartition) (hge : f r.topicPartition ≤ r.offset) :
    e.ids (e.below r.topicPartition (pass f r r.topicPartition))
      = e.ids (e.below r.topicPartition (f r.topicPartition)) ++ (e.idOf r).toList := by
  have hmax : max (f r.topicPartition) (r.offset + 1) = r.offset + 1 := by omega
  have hbefore : e.ids (e.below r.topicPartition r.offset)
      = e.ids (e.below r.topicPartition (f r.topicPartition)) :=
    Setup.ids_below_congr hge fun r' hr' hle hlt => h.idOf_between hp hi hr' hle hlt
  rw [pass_self, hmax, Setup.below_succ hr, ← hbefore, Setup.ids, List.filterMap_append]
  cases hid : e.idOf r <;> simp [Setup.ids, hid]

/-- The record the handler is at, in the log. -/
theorem InOrder.mem_log (h : InOrder e f ls s) {records : List Record} (hp : s.phase = .handling records)
    {r : Record} (hr : r ∈ records) : r ∈ e.topics.log r.topicPartition := by
  refine ((h.covered.fetched records ?_).2 r hr).1
  rw [show s.consumer.loop.phase = .handling records from hp]
  exact List.mem_singleton.mpr rfl

theorem InOrder.ids_pass_none (h : InOrder e f ls s) {records : List Record} (hp : s.phase = .handling records)
    {r : Record} {v : Json} (hi : (decodedOf e.codec records)[s.progress.reached]? = some (r, v))
    (hr : r ∈ e.topics.log r.topicPartition) (hnone : e.idOf r = none) (tp : String × ℕ) :
    e.ids (e.below tp (pass f r tp)) = e.ids (e.below tp (f tp)) := by
  by_cases htp : tp = r.topicPartition
  · subst htp
    by_cases hge : f r.topicPartition ≤ r.offset
    · rw [h.ids_pass hp hi hr hge, hnone, Option.toList_none, List.append_nil]
    · rw [pass_self, max_eq_left (by omega)]
  · rw [pass_of_ne f htp]

/-- What a call does to the ids before the frontier: it writes exactly for an id that is new there. -/
theorem InOrder.call_cases (h : InOrder e f ls s) {records : List Record} (hp : s.phase = .handling records)
    {r : Record} {v : Json} {d : DetectionEvent}
    (hi : (decodedOf e.codec records)[s.progress.reached]? = some (r, v))
    (hr : r ∈ e.topics.log r.topicPartition) (hd : e.detectionOf r = some d) :
    (s.writes d = true ∧ d.detectionId ∉ e.ids (e.below r.topicPartition (f r.topicPartition)) ∧
      d.detectionId ∈ e.ids (e.topics.log r.topicPartition) ∧
      e.ids (e.below r.topicPartition (pass f r r.topicPartition))
        = e.ids (e.below r.topicPartition (f r.topicPartition)) ++ [d.detectionId]) ∨
    (s.writes d = false ∧
      (e.ids (e.below r.topicPartition (pass f r r.topicPartition))
          = e.ids (e.below r.topicPartition (f r.topicPartition)) ∨
        d.detectionId ∈ e.ids (e.below r.topicPartition (f r.topicPartition)) ∧
        e.ids (e.below r.topicPartition (pass f r r.topicPartition))
          = e.ids (e.below r.topicPartition (f r.topicPartition)) ++ [d.detectionId])) := by
  by_cases hk : Known d.detectionType
  · have hid : e.idOf r = some d.detectionId := Setup.idOf_known hd hk
    have hlog : d.detectionId ∈ e.ids (e.topics.log r.topicPartition) := Setup.mem_ids hr hid
    have hreceipt := h.receipts r.topicPartition d.detectionId hlog
    have hwrites : s.writes d = true ↔ d.detectionId ∉ e.ids (e.below r.topicPartition (f r.topicPartition)) := by
      rw [Worker.writes_iff, ← hreceipt, not_not]
      exact and_iff_left hk
    by_cases hge : f r.topicPartition ≤ r.offset
    · have hpass := h.ids_pass hp hi hr hge
      rw [hid, Option.toList_some] at hpass
      by_cases hw : s.writes d = true
      · exact .inl ⟨hw, hwrites.mp hw, hlog, hpass⟩
      · exact .inr ⟨by simpa using hw, .inr ⟨not_not.mp fun hnot => hw (hwrites.mpr hnot), hpass⟩⟩
    · -- a redelivered record: its id is before the frontier
      have hbelow : r ∈ e.below r.topicPartition (f r.topicPartition) := by
        refine List.mem_filter.mpr ⟨hr, ?_⟩
        simpa using hge
      have hw : s.writes d = false := by
        rw [Bool.eq_false_iff]
        exact fun hw => hwrites.mp hw (Setup.mem_ids hbelow hid)
      exact .inr ⟨hw, .inl (by rw [pass_self, max_eq_left (by omega)])⟩
  · have hw : s.writes d = false := by
      rw [Bool.eq_false_iff]
      exact fun hw => hk (Worker.writes_iff.mp hw).2
    exact .inr ⟨hw, .inl (h.ids_pass_none hp hi hr (Setup.idOf_unknown hd hk) _)⟩

theorem appliedIn_append (tp : String × ℕ) (ls : List WorkLabel) (l : WorkLabel) :
    appliedIn tp (ls ++ [l]) = appliedIn tp ls ++ appliedIn tp [l] :=
  List.filterMap_append

theorem eraseDups_snoc_of_mem {xs : List String} {x : String} (h : x ∈ xs) :
    (xs ++ [x]).eraseDups = xs.eraseDups := by
  rw [List.eraseDups_append]
  simp [List.removeAll, h]

theorem eraseDups_snoc_of_notMem {xs : List String} {x : String} (h : x ∉ xs) :
    (xs ++ [x]).eraseDups = xs.eraseDups ++ [x] := by
  rw [List.eraseDups_append]
  simp [List.removeAll, h, List.eraseDups_cons]

/-- A call that was executed. -/
theorem InOrder.call (h : InOrder e f ls s) (hu : e.Unshared) {records : List Record}
    (hp : s.phase = .handling records) {r : Record} {v : Json} {d : DetectionEvent} {reply : Reply}
    (hi : (decodedOf e.codec records)[s.progress.reached]? = some (r, v))
    (hr : r ∈ e.topics.log r.topicPartition) (hd : e.detectionOf r = some d)
    (hserver : t.server = (perform e.redis s.server (.call d)).2)
    (hcovered : Covered e.topics (fun r => r.offset < f r.topicPartition) t.consumer) (hengaged : t.Engaged e)
    (hbehind : ∀ records, t.phase = .handling records → ∀ j < t.progress.reached, ∀ r' v,
      (decodedOf e.codec records)[j]? = some (r', v) → r'.offset < pass f r r'.topicPartition)
    (hhandled : handledBatch t.phase = none) :
    InOrder e (pass f r) (ls ++ [.call r d (s.writes d) reply]) t := by
  have hcases := h.call_cases hp hi hr hd
  refine ⟨hcovered.mono fun r' hr' => lt_of_lt_of_le hr' (le_pass f r _), hengaged, fun tp => ?_, fun tp i hlog => ?_,
    hbehind, fun records' hp' => by rw [hhandled] at hp'; cases hp'⟩
  · rw [appliedIn_append, h.applied]
    by_cases htp : tp = r.topicPartition
    · subst htp
      rcases hcases with ⟨hw, hnew, -, heq⟩ | ⟨hw, heq | ⟨hold, heq⟩⟩
      · rw [heq, eraseDups_snoc_of_notMem hnew, hw]
        simp [appliedIn]
      · rw [heq, hw]
        simp [appliedIn]
      · rw [heq, eraseDups_snoc_of_mem hold, hw]
        simp [appliedIn]
    · rw [pass_of_ne f htp]
      cases s.writes d <;> simp [appliedIn, Ne.symm htp]
  · rw [hserver]
    by_cases htp : tp = r.topicPartition
    · subst htp
      rcases hcases with ⟨hw, -, -, heq⟩ | ⟨hw, heq | ⟨hold, heq⟩⟩
      · obtain ⟨hown, hother⟩ := @perform_writes e.redis s d hw
        rw [heq, List.mem_append, List.mem_singleton]
        by_cases hid : i = d.detectionId
        · rw [hid]
          exact ⟨fun _ => .inr rfl, fun _ => hown⟩
        · rw [hother i hid, h.receipts _ i hlog]
          exact ⟨.inl, fun hor => hor.resolve_right hid⟩
      · rw [perform_not_writes hw, heq]
        exact h.receipts _ i hlog
      · rw [perform_not_writes hw, heq, h.receipts _ i hlog, List.mem_append, List.mem_singleton]
        exact ⟨.inl, fun hor => hor.elim id fun heq => heq ▸ hold⟩
    · rw [pass_of_ne f htp, ← h.receipts tp i hlog]
      rcases hcases with ⟨hw, -, hmem, -⟩ | ⟨hw, -⟩
      · have hne : i ≠ d.detectionId := fun heq => htp (hu tp r.topicPartition i hlog (heq ▸ hmem))
        rw [(perform_writes hw).2 i hne]
      · rw [perform_not_writes hw]

/-! ## Steps -/

/-- A batch is handed back by the handler, or nothing of it was handed over. -/
theorem handledBatch_step {c : Codec} {settings : LoopSettings} {a b : Loop AuditRecord}
    {l : LoopLabel AuditRecord} (hl : l.ofHandler = false) (h : LoopStep c settings a l b) {records : List Record}
    (hb : handledBatch b.phase = some records) :
    handledBatch a.phase = some records ∨ decodedOf c records = [] := by
  cases h with
  | pollNothing | ack | fail | shutdown => exact .inl hb
  | handlerSend | handlerFlush | handlerFlushRaised | handlerEnd => cases hl
  | poll | pollEscape | stop | dlqEscape | notVerified | sleep | retry | abandon | commit => cases hb
  | pollSkipped records' hp hs hne hasc hdec =>
      obtain rfl := Option.some.inj hb
      exact .inr hdec
  | noHandler records' hp hdec =>
      obtain rfl := Option.some.inj hb
      exact .inr hdec
  | sendToDlq records' r x todo failedAt enqueued hp =>
      obtain rfl := Option.some.inj hb
      exact .inl (by rw [hp]; rfl)
  | sentToDlq records' hp | verified records' o hp =>
      obtain rfl := Option.some.inj hb
      exact .inl (by rw [hp]; rfl)

/-- The loop and the broker beside the handler, with a frontier that covers a batch that is committed. -/
theorem InOrder.consumerStep (h : InOrder e f ls s) {l : Option (LoopLabel AuditRecord)} {t : Consumer AuditRecord}
    (hl : ofHandler l = false) (hstep : ConsumerStep e.codec e.settings e.topics s.consumer l t)
    (hbatch : ∀ records offsets ok, l = some (.commit records offsets ok) → ∀ r ∈ records,
      r.offset < f r.topicPartition) :
    InOrder e f (ls ++ [.consumer l])
      { s with consumer := t, progress := if l.isNone then .idle else s.progress } where
  covered := h.covered.step hstep (fun _ hr => hr) hbatch
  engaged := h.engaged.step (.consumer l t hl hstep)
  applied tp := by
    rw [appliedIn_append, h.applied]
    simp [appliedIn]
  receipts := h.receipts
  behind records hp j hj r v hr := by
    cases l with
    | none => exact absurd hj (Nat.not_lt_zero j)
    | some l =>
        have hg : s.progress ≠ .idle := by
          intro hidle
          simp only [Option.isNone_some, Bool.false_eq_true, if_false, hidle] at hj
          exact absurd hj (Nat.not_lt_zero j)
        exact h.behind records ((h.engaged.phase_eq hg hl hstep).symm.trans hp) j hj r v hr
  handled records hp r v hr := by
    cases l with
    | none =>
        cases hstep with
        | relaunch => cases hp
    | some l =>
        rcases handledBatch_step hl hstep.loopStep hp with hold | hnil
        · exact h.handled records hold r v hr
        · rw [hnil] at hr
          cases hr

/-- Before a commit the frontier may move up to the position. -/
theorem InOrder.committing (h : InOrder e f ls s) {records : List Record} (hp : s.phase = .committing records) :
    InOrder e (fun tp => max (f tp) (s.consumer.position tp)) ls s := by
  refine h.widen (fun tp => le_max_left ..) fun tp => ?_
  refine Setup.ids_below_congr (le_max_left ..) fun r hr hge hlt => ?_
  have hphase : s.consumer.loop.phase = .committing records := hp
  have hown : r.topicPartition = tp := e.topics.own tp r hr
  -- what is neither contained nor without an id would still be in the batch, but that is handled
  rcases h.covered.position (by rw [hphase]; simp) tp r hr (by omega) with hbelow | ⟨records', hmem, hin⟩
  · rw [hown] at hbelow
    omega
  · rw [hphase] at hmem
    rw [List.mem_singleton.mp hmem] at hin
    by_contra hsome
    obtain ⟨i, hi⟩ := Option.ne_none_iff_exists'.mp hsome
    obtain ⟨v, hv⟩ := Setup.mem_decodedOf hin hi
    have hbelow := h.handled records (by rw [hp]; rfl) r v hv
    rw [hown] at hbelow
    omega

/-- The handler sends an audit record or ends. -/
theorem InOrder.handlerStep (h : InOrder e f ls s) {l' : LoopLabel AuditRecord} {t : Loop AuditRecord}
    {progress : Progress} (hl : ∀ tp, appliedIn tp (ls ++ [l]) = appliedIn tp ls) (hpoll : l'.polledBatch = none)
    (hcommit : l'.committedBatch = none) (hstep : LoopStep e.codec e.settings s.consumer.loop l' t)
    (hengaged : (s.goto t progress).Engaged e)
    (hbehind : ∀ records, t.phase = .handling records → ∀ j < progress.reached, ∀ r v,
      (decodedOf e.codec records)[j]? = some (r, v) → r.offset < f r.topicPartition)
    (hhandled : ∀ records, handledBatch t.phase = some records → ∀ r v, (r, v) ∈ decodedOf e.codec records →
      r.offset < f r.topicPartition) :
    InOrder e f (ls ++ [l]) (s.goto t progress) where
  covered := h.covered.within (fun _ hr => hr) hpoll hcommit hstep
  engaged := hengaged
  applied tp := by
    rw [hl]
    exact h.applied tp
  receipts := h.receipts
  behind := hbehind
  handled := hhandled

theorem finish_raised {x : Raised} (hx : x.error.isTransient = true) {c : Codec} {settings : LoopSettings}
    {a b : Loop AuditRecord} (h : LoopStep c settings a (.handlerEnd (.raised x)) b) :
    ∃ records, b.phase = .backingOff records false := by
  cases h with
  | handlerEnd records o hp =>
      refine ⟨records, ?_⟩
      unfold Loop.finish
      rw [if_pos (show Outcome.transient (.raised x) = true from hx)]
      rfl

theorem finish_returned {failures : ℕ → Option Raised} {c : Codec} {settings : LoopSettings}
    {a b : Loop AuditRecord} (h : LoopStep c settings a (.handlerEnd (.returned failures)) b) {records : List Record}
    (hp : a.phase = .handling records) : ∃ todo, b.phase = .deadLettering records todo := by
  cases h with
  | handlerEnd records' o hp' =>
      rw [hp] at hp'
      cases hp'
      exact ⟨_, rfl⟩

/-- The frontier after the record that the handler has just dealt with. -/
theorem InOrder.behind_pass (h : InOrder e f ls s) {records : List Record} (hp : s.phase = .handling records)
    {r : Record} {v : Json} (hi : (decodedOf e.codec records)[s.progress.reached]? = some (r, v)) {j : ℕ}
    (hj : j < s.progress.reached + 1) {r' : Record} {v' : Json} (hr' : (decodedOf e.codec records)[j]? = some (r', v')) :
    r'.offset < pass f r r'.topicPartition := by
  rcases Nat.lt_succ_iff_lt_or_eq.mp hj with hlt | rfl
  · exact lt_of_lt_of_le (h.behind records hp j hlt r' v' hr') (le_pass f r _)
  · rw [hi] at hr'
    cases hr'
    rw [pass_self]
    omega

/-- A record that is no detection. -/
theorem InOrder.invalid (h : InOrder e f ls s) {records : List Record} {i : ℕ} {failures failures' : ℕ → Option Raised}
    {r : Record} {v : Json} {x : Raised} (hp : s.phase = .handling records) (hg : s.progress = .working i failures)
    (hi : (decodedOf e.codec records)[i]? = some (r, v)) (hv : e.validate v = .error x)
    (hengaged : Worker.Engaged e { s with progress := .working (i + 1) failures' }) :
    InOrder e (pass f r) (ls ++ [.invalid r]) { s with progress := .working (i + 1) failures' } := by
  have hreached : s.progress.reached = i := by rw [hg]; rfl
  have hr : r ∈ records := (of_mem_decodedOf (List.mem_of_getElem? hi)).1
  have hnone : e.idOf r = none := Setup.idOf_invalid (List.mem_of_getElem? hi) hv
  rw [← hreached] at hi
  refine (h.widen (le_pass f r) (h.ids_pass_none hp hi (h.mem_log hp hr) hnone)).quiet
    (fun tp => by simp [appliedIn]) rfl hengaged (fun _ _ _ => Iff.rfl) fun records' hp' j hj hge r' v' hj' => ?_
  obtain rfl : records = records' := by
    rw [hp] at hp'
    cases hp'
    rfl
  exact h.behind_pass hp hi (by rw [hreached]; exact hj) hj'

/-- A call that returns. -/
theorem InOrder.returns (h : InOrder e f ls s) (hu : e.Unshared) {records : List Record} {i : ℕ}
    {failures : ℕ → Option Raised} {r : Record} {v : Json} {d : DetectionEvent} {actions : List ActionKind}
    {server : Server} (hp : s.phase = .handling records) (hg : s.progress = .working i failures)
    (hi : (decodedOf e.codec records)[i]? = some (r, v)) (hv : e.validate v = .ok d)
    (hc : perform e.redis s.server (.call d) = (some actions, server))
    (hengaged : Worker.Engaged e { s with server := server, progress := .auditing i failures d actions }) :
    InOrder e (pass f r) (ls ++ [.call r d (s.writes d) (.returned actions)])
      { s with server := server, progress := .auditing i failures d actions } := by
  have hreached : s.progress.reached = i := by rw [hg]; rfl
  have hr : r ∈ records := (of_mem_decodedOf (List.mem_of_getElem? hi)).1
  have hd : e.detectionOf r = some d := Setup.detectionOf_decoded (List.mem_of_getElem? hi) hv
  rw [← hreached] at hi
  refine h.call hu hp hi (h.mem_log hp hr) hd (by rw [hc]) h.covered hengaged (fun records' hp' j hj r' v' hj' => ?_) ?_
  · obtain rfl : records = records' := by
      rw [show s.phase = _ from hp'] at hp
      cases hp
      rfl
    exact h.behind_pass hp hi (by rw [hreached]; exact hj) hj'
  · show handledBatch s.phase = none
    rw [hp]
    rfl

/-- A call whose reply is lost, executed or not. -/
theorem InOrder.interrupted (h : InOrder e f ls s) (hu : e.Unshared) {records : List Record} {i : ℕ}
    {failures : ℕ → Option Raised} {r : Record} {v : Json} {d : DetectionEvent} {executed : Bool} {x : Raised}
    {t : Loop AuditRecord} (hp : s.phase = .handling records) (hg : s.progress = .working i failures)
    (hi : (decodedOf e.codec records)[i]? = some (r, v)) (hv : e.validate v = .ok d)
    (hx : x.error.isTransient = true)
    (hloop : LoopStep e.codec e.settings s.consumer.loop (.handlerEnd (.raised x)) t) :
    ∃ f', InOrder e f' (ls ++ [.call r d (executed && s.writes d) .interrupted])
      { s.goto t .idle with server := s.called e.redis d executed } := by
  obtain ⟨records', hback⟩ := finish_raised hx hloop
  have hreached : s.progress.reached = i := by rw [hg]; rfl
  have hengaged := h.engaged.step (.callInterrupted records i failures r v d executed x t hp hg hi hv hx hloop)
  have hhandled : handledBatch t.phase = none := by
    rw [hback]
    rfl
  have hr : r ∈ records := (of_mem_decodedOf (List.mem_of_getElem? hi)).1
  have hd : e.detectionOf r = some d := Setup.detectionOf_decoded (List.mem_of_getElem? hi) hv
  rw [← hreached] at hi
  cases executed with
  | true =>
      exact ⟨pass f r, h.call hu hp hi (h.mem_log hp hr) hd rfl (h.covered.within (fun _ hr => hr) rfl rfl hloop)
        hengaged (fun _ _ j hj => absurd hj (Nat.not_lt_zero j)) hhandled⟩
  | false =>
      refine ⟨f, h.handlerStep (fun tp => by simp [appliedIn]) rfl rfl hloop hengaged
        (fun _ _ j hj => absurd hj (Nat.not_lt_zero j)) fun records'' hp'' => ?_⟩
      rw [hhandled] at hp''
      cases hp''

/-- The handler returns after the last record. -/
theorem InOrder.finished (h : InOrder e f ls s) {records : List Record} {failures : ℕ → Option Raised}
    {t : Loop AuditRecord} (hp : s.phase = .handling records)
    (hg : s.progress = .working (decodedOf e.codec records).length failures)
    (hloop : LoopStep e.codec e.settings s.consumer.loop (.handlerEnd (.returned failures)) t) :
    InOrder e f (ls ++ [.consumer (some (.handlerEnd (.returned failures)))]) (s.goto t .idle) := by
  obtain ⟨todo, hdone⟩ := finish_returned hloop hp
  refine h.handlerStep (fun tp => by simp [appliedIn]) rfl rfl hloop
    (h.engaged.step (.returned records failures t hp hg hloop)) (fun _ _ j hj => absurd hj (Nat.not_lt_zero j))
    fun records' hp' r v hr => ?_
  rw [hdone] at hp'
  cases hp'
  obtain ⟨j, hj⟩ := List.mem_iff_getElem?.mp hr
  refine h.behind records hp j ?_ r v hj
  rw [hg]
  exact (List.getElem?_eq_some_iff.mp hj).1

/-- The loop and the broker beside the handler. -/
theorem InOrder.beside (h : InOrder e f ls s) {l : Option (LoopLabel AuditRecord)} {t : Consumer AuditRecord}
    (hl : ofHandler l = false) (hstep : ConsumerStep e.codec e.settings e.topics s.consumer l t) :
    ∃ f', InOrder e f' (ls ++ [.consumer l])
      { s with consumer := t, progress := if l.isNone then .idle else s.progress } := by
  by_cases hcommit : ∃ records offsets ok, l = some (.commit records offsets ok)
  · obtain ⟨records, offsets, ok, rfl⟩ := hcommit
    have hp : s.phase = .committing records := hstep.loopStep.commit_spec.1
    have hmem : records ∈ s.consumer.loop.phase.current := by
      rw [show s.consumer.loop.phase = _ from hp]
      exact List.mem_singleton.mpr rfl
    refine ⟨_, (h.committing hp).consumerStep hl hstep fun records' offsets' ok' heq r hr => ?_⟩
    cases heq
    exact lt_of_lt_of_le ((h.covered.fetched records hmem).2 r hr).2 (le_max_right ..)
  · exact ⟨f, h.consumerStep hl hstep fun records offsets ok heq => absurd ⟨records, offsets, ok, heq⟩ hcommit⟩

theorem InOrder.step (h : InOrder e f ls s) (hu : e.Unshared) (hl : SmoothStep e s l t) :
    ∃ f', InOrder e f' (ls ++ [l]) t := by
  obtain ⟨hstep, hsmooth, hlive⟩ := hl
  have hengaged : t.Engaged e := h.engaged.step hstep
  cases hstep with
  | consumer l t hl hc => exact h.beside hl hc
  | begin records hp hdec hg =>
      refine ⟨f, h.quiet (fun tp => by simp [appliedIn]) rfl hengaged (fun _ _ _ => Iff.rfl) fun _ _ j hj => ?_⟩
      exact absurd hj (Nat.not_lt_zero j)
  | invalid records i failures r v x hp hg hi hv => exact ⟨_, h.invalid hp hg hi hv hengaged⟩
  | call records i failures r v d actions server hp hg hi hv hc => exact ⟨_, h.returns hu hp hg hi hv hc hengaged⟩
  | callFailed _ _ _ r _ d executed => exact absurd rfl (hsmooth r d (executed && s.writes d))
  | callInterrupted records i failures r v d executed x t hp hg hi hv hx hloop =>
      exact h.interrupted hu hp hg hi hv hx hloop
  | audit i failures d actions enqueued t hg hloop =>
      obtain ⟨records, hp, -⟩ := h.engaged (by rw [hg]; simp)
      have hphase : t.phase = s.phase := by
        cases hloop with
        | handlerSend => rfl
      refine ⟨f, h.handlerStep (fun tp => by simp [appliedIn]) rfl rfl hloop hengaged (fun records' hp' j hj => ?_)
        fun records' hp' => ?_⟩
      · refine h.behind records' (hphase ▸ hp') j ?_
        rw [hg]
        exact hj
      · rw [hphase, hp] at hp'
        cases hp'
  | auditFailed i failures d actions x hg hx =>
      refine ⟨f, h.quiet (fun tp => by simp [appliedIn]) rfl hengaged (fun _ _ _ => Iff.rfl) fun _ _ j hj hge => ?_⟩
      rw [hg] at hge
      exact absurd hj (Nat.not_lt.mpr hge)
  | returned records failures t hp hg hloop => exact ⟨f, h.finished hp hg hloop⟩
  | other db hdb =>
      refine ⟨f, h.quiet (fun tp => by simp [appliedIn]) rfl hengaged (fun tp i hi => ?_) fun _ _ j hj hge => ?_⟩
      · obtain ⟨r, hr, d, hd, rfl⟩ := Setup.exists_of_mem_ids hi
        rw [hdb tp r hr d hd]
      · exact absurd hj (Nat.not_lt.mpr hge)
  | tick now hnow =>
      refine ⟨f, h.quiet (fun tp => by simp [appliedIn]) rfl hengaged (fun tp i hi => ?_) fun _ _ j hj hge => ?_⟩
      · refine ⟨fun hne => ?_, hlive rfl tp i hi⟩
        have hpurged : receipt (purge now s.server.db) i ≠ none := hne
        rcases purge_cases now s.server.db (receiptKey i) with heq | hgone
        · rwa [show receipt (purge now s.server.db) i = receipt s.server.db i from congrArg payload heq] at hpurged
        · exact absurd (congrArg payload hgone) hpurged
      · exact absurd hj (Nat.not_lt.mpr hge)

theorem InOrder.start (h : s.Fresh e) : InOrder e (fun _ => 0) [] s where
  covered := .start h.loop.phase h.position h.committed
  engaged hg := absurd h.progress hg
  applied tp := by simp [appliedIn, Setup.ids, Setup.below]
  receipts tp i hi := by
    obtain ⟨r, hr, d, hd, rfl⟩ := Setup.exists_of_mem_ids hi
    simp [h.receipts tp r hr d hd, Setup.ids, Setup.below]
  behind records hp := by
    rw [Worker.phase, h.loop.phase] at hp
    cases hp
  handled records hp := by
    rw [Worker.phase, h.loop.phase] at hp
    cases hp

/-- In every run without refused calls and without expired receipts, over crashes, redelivery, retries and
lost replies: the rules of a partition are written for the ids of an initial part of its log, in its
order and once for each id, and that part has every record the stored offset has passed. -/
theorem contained_once_in_order {s₀ : Worker} (h₀ : s₀.Fresh e) (hu : e.Unshared) (h : Run (SmoothStep e) s₀ ls s)
    (tp : String × ℕ) : ∃ done rest, e.topics.log tp = done ++ rest ∧ appliedIn tp ls = (e.ids done).eraseDups ∧
      ∀ r ∈ e.topics.log tp, r.offset < s.consumer.committed tp → r ∈ done := by
  obtain ⟨f, hinv⟩ : ∃ f, InOrder e f ls s := by
    refine h.history (I := fun ls s => ∃ f, InOrder e f ls s) ⟨_, .start h₀⟩ fun _ _ _ _ hI hstep => ?_
    obtain ⟨f, hI⟩ := hI
    exact hI.step hu hstep
  obtain ⟨rest, hsplit⟩ := Setup.below_append (e := e) tp (f tp)
  refine ⟨e.below tp (f tp), rest, hsplit, hinv.applied tp, fun r hr hlt => ?_⟩
  have hbelow := hinv.covered.committed tp r hr hlt
  rw [e.topics.own tp r hr] at hbelow
  exact List.mem_filter.mpr ⟨hr, by simpa using hbelow⟩

end

namespace Sample

/-- The record of `burst`. -/
def delivered : Record := ⟨"detections", 0, 0, none, some [123]⟩

/-- The engine on a topic with one record. -/
def setup : Setup where
  codec := LoopSample.codec
  settings := { stage := "containment" }
  redis := {}
  topics :=
    { log := fun tp => if tp = ("detections", 0) then [delivered] else []
      own := by
        intro tp r hr
        split at hr
        · rw [List.mem_singleton.mp hr]
          exact Eq.symm ‹_›
        · cases hr
      sorted := by
        intro tp
        split
        · exact List.pairwise_singleton ..
        · exact .nil }
  validate := fun _ => .ok burst
  invalid := nofun

/-- The engine before its first poll. -/
def worker : Worker :=
  ⟨⟨⟨.polling, false, 0, ⟨[], [], [], false⟩, [], none, false, {}, []⟩, fun _ => 0, fun _ => 0⟩, .idle, ⟨0, fun _ => none⟩⟩

theorem worker_fresh : worker.Fresh setup :=
  ⟨⟨rfl, rfl, rfl, rfl⟩, rfl, fun _ => rfl, fun _ => rfl, rfl, fun _ _ _ _ _ => rfl⟩

theorem setup_unshared : setup.Unshared := by
  have honly : ∀ tp i, i ∈ setup.ids (setup.topics.log tp) → tp = ("detections", 0) := by
    intro tp i hi
    obtain ⟨r, hr, -⟩ := Setup.exists_of_mem_ids hi
    simp only [setup] at hr
    split at hr
    · assumption
    · cases hr
  intro tp tp' i hi hi'
  rw [honly tp i hi, honly tp' i hi']

theorem delivered_ids : setup.ids [delivered] = ["d1"] := by decide +kernel

theorem decodedOf_delivered : decodedOf setup.codec [delivered] = [(delivered, .str "x")] := rfl

theorem fetched_delivered : setup.topics.Fetched (fun _ => 0) [delivered] := by
  intro tp
  by_cases htp : tp = ("detections", 0)
  · subst htp
    simp [setup, delivered, Record.topicPartition]
  · have hne : delivered.topicPartition ≠ tp := Ne.symm htp
    simp [hne]

/-- The record is polled by a process that has polled nothing. -/
theorem polls_delivered {a : Loop AuditRecord} (hp : a.phase = .polling) (hs : a.shutdown = false)
    (hpolled : a.polled = []) : ∃ b, LoopStep setup.codec setup.settings a (.poll [delivered]) b ∧
      b.phase = .handling [delivered] ∧ b.producer = a.producer.clear := by
  refine ⟨_, .poll [delivered] hp hs (by simp) ?_ ?_ (.inl (by simp [decodedOf_delivered])), rfl, rfl⟩
  · rw [hpolled]
    exact List.pairwise_singleton ..
  · simp [Escapes, decodeJson, delivered, setup, LoopSample.codec]

/-- A process that has just been started, with nothing committed. -/
def started (a : Loop AuditRecord) (server : Server) : Worker := ⟨⟨a, fun _ => 0, fun _ => 0⟩, .idle, server⟩

/-- The call is executed, its reply is lost and the process dies. -/
theorem loses_reply : ∃ ls a, Run (SmoothStep setup) worker ls (started a (perform {} ⟨0, fun _ => none⟩ (.call burst)).2) ∧
    .call delivered burst true .interrupted ∈ ls ∧ a.phase = .polling ∧ a.shutdown = false ∧ a.polled = [] ∧
      a.producer = ⟨[], [], [], false⟩ := by
  have hdec : decodedOf setup.codec [delivered] ≠ [] := by simp [decodedOf_delivered]
  obtain ⟨b, hpoll, hhandling, hproducer⟩ := polls_delivered (a := worker.consumer.loop) rfl rfl rfl
  refine ⟨_, _, .cons ⟨.consumer _ _ rfl (.poll _ [delivered] b rfl fetched_delivered hpoll), nofun, nofun⟩
    (.cons ⟨.begin [delivered] hhandling hdec rfl, nofun, nofun⟩
    (.cons ⟨.callInterrupted [delivered] 0 _ delivered (.str "x") burst true ⟨.redisTransient, "", ""⟩ _ hhandling rfl
      rfl rfl rfl (.handlerEnd [delivered] _ hhandling hdec), by simp, nofun⟩
    (.single ⟨.consumer none _ rfl .relaunch, nofun, nofun⟩))), ?_, rfl, rfl, rfl, ?_⟩
  · exact List.mem_cons_of_mem _ (List.mem_cons_of_mem _ (List.mem_cons_self ..))
  · simp only [Loop.relaunch, Worker.goto, Loop.finish, Loop.backOff, Outcome.transient, PyError.isTransient, if_true,
      hproducer]
    rfl

/-- The record is delivered again, and its call finds the receipt. -/
theorem finds_receipt {a : Loop AuditRecord} (hp : a.phase = .polling) (hs : a.shutdown = false) (hpolled : a.polled = [])
    (hempty : a.producer = ⟨[], [], [], false⟩) :
    ∃ ls t, Run (SmoothStep setup) (started a (perform {} ⟨0, fun _ => none⟩ (.call burst)).2) ls t ∧
      t.consumer.committed ("detections", 0) = 1 ∧ .call delivered burst false (.returned [.quarantine]) ∈ ls := by
  have hdec : decodedOf setup.codec [delivered] ≠ [] := by simp [decodedOf_delivered]
  obtain ⟨b, hpoll, hhandling, hproducer⟩ := polls_delivered hp hs hpolled
  rw [hempty] at hproducer
  refine ⟨_, _, .cons ⟨.consumer _ _ rfl (.poll _ [delivered] b rfl fetched_delivered hpoll), nofun, nofun⟩
    (.cons ⟨.begin [delivered] hhandling hdec rfl, nofun, nofun⟩
    (.cons ⟨.call [delivered] 0 _ delivered (.str "x") burst [.quarantine] _ hhandling rfl rfl rfl rfl, by simp, nofun⟩
    (.cons ⟨.audit 0 _ burst [.quarantine] true _ rfl (.handlerSend [delivered] _ true hhandling hdec), nofun, nofun⟩
    (.cons ⟨.consumer (some (.ack 0)) _ rfl (.within _ _ rfl rfl (.ack 0 ?_)), nofun, nofun⟩
    (.cons ⟨.returned [delivered] _ _ hhandling rfl (.handlerEnd [delivered] _ hhandling hdec), nofun, nofun⟩
    (.cons ⟨.consumer (some .sentToDlq) _ rfl (.within _ _ rfl rfl (.sentToDlq [delivered] rfl)), nofun, nofun⟩
    (.cons ⟨.consumer (some (.flushAndVerify false)) _ rfl
      (.within _ _ rfl rfl (.verified [delivered] _ rfl rfl ?_ ?_)), nofun, nofun⟩
    (.single ⟨.consumer _ _ rfl (.commit [delivered] _ true true _ (fun _ => rfl) (.commit [delivered] true rfl)),
      nofun, nofun⟩)))))))), ?_, ?_⟩
  · show 0 ∈ (b.send (.fromHandler (auditRecord burst [.quarantine])) true).producer.inflight
    simp [Loop.send, Producer.send, Producer.clear, hproducer]
  · show ((b.send (.fromHandler (auditRecord burst [.quarantine])) true).producer.ack 0).inflight = []
    simp [Loop.send, Producer.send, Producer.ack, Producer.clear, hproducer]
  · show ((b.send (.fromHandler (auditRecord burst [.quarantine])) true).producer.ack 0).latch = false
    simp [Loop.send, Producer.send, Producer.ack, Producer.clear, hproducer]
  · rfl
  · exact List.mem_cons_of_mem _ (List.mem_cons_of_mem _ (List.mem_cons_self ..))

theorem redelivered_run : ∃ ls s, Run (SmoothStep setup) worker ls s ∧
    s.consumer.committed ("detections", 0) = 1 ∧
    .call delivered burst true .interrupted ∈ ls ∧ .call delivered burst false (.returned [.quarantine]) ∈ ls := by
  obtain ⟨ls, a, hrun, hlost, hp, hs, hpolled, hempty⟩ := loses_reply
  obtain ⟨ls', t, hrun', hcommitted, hreturned⟩ := finds_receipt hp hs hpolled hempty
  exact ⟨ls ++ ls', t, hrun.append hrun', hcommitted, List.mem_append_left _ hlost, List.mem_append_right _ hreturned⟩

end Sample

/-- Two calls, one write. -/
theorem contained_once_after_lost_reply :
    ∃ ls s, Run (SmoothStep Sample.setup) Sample.worker ls s ∧
      .call Sample.delivered Sample.burst true .interrupted ∈ ls ∧
      .call Sample.delivered Sample.burst false (.returned [.quarantine]) ∈ ls ∧
      appliedIn ("detections", 0) ls = ["d1"] := by
  obtain ⟨ls, s, h, hcommitted, hlost, hreturned⟩ := Sample.redelivered_run
  refine ⟨ls, s, h, hlost, hreturned, ?_⟩
  obtain ⟨done, rest, hsplit, happlied, hdone⟩ :=
    contained_once_in_order Sample.worker_fresh Sample.setup_unshared h ("detections", 0)
  have hlog : Sample.setup.topics.log ("detections", 0) = [Sample.delivered] := rfl
  have hmem : Sample.delivered ∈ done := by
    refine hdone _ (by rw [hlog]; simp) ?_
    rw [hcommitted]
    decide
  rw [hlog] at hsplit
  -- the stored offset has passed the only record
  obtain rfl : done = [Sample.delivered] := by
    cases done with
    | nil => cases hmem
    | cons r done => simp_all
  rw [happlied, Sample.delivered_ids]
  rfl

end Rtace.Containment
