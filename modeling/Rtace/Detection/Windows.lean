import Mathlib.Data.Finset.Max
import Rtace.Lib.RollingWindow
import Rtace.Decision.Engine
import Rtace.Detection.Baseline

/-!
# The rolling windows over runs

Three families of sorted sets count events in a rolling window: the transactions of a user, the failed logins
of a user, and the failed logins from an address. What a call counts is compared with the events seen so far
on the key, for events in order of time and for events in any order.
-/

namespace Rtace

open Lib Redis

/-- What a window is about. -/
inductive Scope where
  | burst (userId : String)
  | user (userId : String)
  | ip (ip : String)

namespace Scope

def key : Scope → String
  | burst userId => burstKey userId
  | user userId => userFailKey userId
  | ip address => ipFailKey address

/-- The length of the window in seconds. -/
def window (cfg : RedisConfig) : Scope → ℚ
  | burst _ => cfg.burstWindowSeconds
  | user _ => cfg.authFailWindowSeconds
  | ip _ => cfg.authFailWindowSeconds

/-- A detection is produced above this count. -/
def threshold (cfg : RedisConfig) : Scope → ℤ
  | burst _ => cfg.burstThreshold
  | user _ => cfg.authFailUserThreshold
  | ip _ => cfg.authFailIpThreshold

end Scope

/-- An event that a window has counted: its id and time, the count returned, and whether the detector
produced a detection for it. -/
structure Counted where
  eventId : String
  ts : ℚ
  count : ℕ
  detected : Bool

/-- The arrival of a counted event at the window. -/
def Counted.arrival (a : Counted) : String × ℚ := (a.eventId, a.ts)

/-- The reply to a transaction in the detection engine. -/
abbrev txReply (rt : Runtime) (cfg : RedisConfig) (now : ℕ) (tx : TransactionEvent) (ref : String) (ts : ℚ)
    (db : Db) : TxReply × Db :=
  txCheck rt now (txKeys rt tx) (txArgs cfg tx ref ts) db

/-- The counts for a failed login. -/
abbrev authReply (cfg : RedisConfig) (now : ℕ) (a : AuthEvent) (ts : ℚ) (db : Db) : (ℕ × ℕ) × Db :=
  authCheck now (userFailKey a.userId) (ipFailKey a.ipAddress) a.eventId ts (ts - cfg.authFailWindowSeconds)
    cfg.authFailKeyTtlSeconds db

/-- One step as a window sees it: a script call that reaches it, from the detection engine or the decision
service, or anything that leaves its key alone. -/
inductive WindowStep (rt : Runtime) (cfg : RedisConfig) (scope : Scope) (db : Db) : Option Counted → Db → Prop
  | tx (now : ℕ) (tx : TransactionEvent) (ref : String) (ts : ℚ) (hscope : scope = .burst tx.userId)
      (hts : tx.timestamp.timestamp rt = .ok ts)
      (hstatus : (txReply rt cfg now tx ref ts db).1.replayStatus ≠ .prescored) :
      WindowStep rt cfg scope db
        (some ⟨tx.eventId, ts, (txReply rt cfg now tx ref ts db).1.burstCount,
          (burstInterpret cfg tx (txReply rt cfg now tx ref ts db).1.burstCount).isSome⟩)
        (txReply rt cfg now tx ref ts db).2
  | decide (gcfg : Engine.Config) (now : ℕ) (tx : Engine.Transaction) (hscope : scope = .burst tx.userId)
      (hwindow : gcfg.burstWindow = cfg.burstWindowSeconds) (hthreshold : gcfg.burstThreshold = cfg.burstThreshold)
      (hstatus : (Engine.runTxCheck rt gcfg now tx db).1.replayStatus ≠ .prescored) :
      WindowStep rt cfg scope db
        (some ⟨tx.eventId, tx.nowTs, (Engine.runTxCheck rt gcfg now tx db).1.burstCount,
          (Engine.interpret gcfg tx (Engine.runTxCheck rt gcfg now tx db).1).any (·.type = "fraud_burst")⟩)
        (Engine.runTxCheck rt gcfg now tx db).2
  | authUser (now : ℕ) (a : AuthEvent) (ts : ℚ) (hscope : scope = .user a.userId)
      (hts : a.timestamp.timestamp rt = .ok ts) :
      WindowStep rt cfg scope db
        (some ⟨a.eventId, ts, (authReply cfg now a ts db).1.1,
          (stuffingInterpret cfg a (authReply cfg now a ts db).1.1 (authReply cfg now a ts db).1.2).1.isSome⟩)
        (authReply cfg now a ts db).2
  | authIp (now : ℕ) (a : AuthEvent) (ts : ℚ) (ip : String) (hscope : scope = .ip ip)
      (hip : ipFailKey a.ipAddress = ipFailKey ip) (hts : a.timestamp.timestamp rt = .ok ts) :
      WindowStep rt cfg scope db
        (some ⟨a.eventId, ts, (authReply cfg now a ts db).1.2,
          (stuffingInterpret cfg a (authReply cfg now a ts db).1.1 (authReply cfg now a ts db).1.2).2.isSome⟩)
        (authReply cfg now a ts db).2
  | other (db' : Db) (h : db' scope.key = db scope.key) : WindowStep rt cfg scope db none db'

/-- The counted events of a run in order. -/
def counted (labels : List (Option Counted)) : List Counted := labels.filterMap id

/-- The arrivals of a run in order. -/
def arrivals (labels : List (Option Counted)) : List (String × ℚ) := (counted labels).map Counted.arrival

/-! ## One call -/

section

variable {rt : Runtime} {cfg : RedisConfig} {scope : Scope} {db db' : Db}

/-- A call that reaches the burst section slides the burst window and returns its size. -/
theorem txCheck_burst {now : ℕ} {keys : TxKeys} {a : TxArgs} (hd : keys.Distinct)
    (hstatus : (txCheck rt now keys a db).1.replayStatus ≠ .prescored) :
    (txCheck rt now keys a db).1.burstCount
        = ((members (db keys.burst)).slide a.burstCutoff a.nowTs a.eventId).card ∧
      members ((txCheck rt now keys a db).2 keys.burst)
        = (members (db keys.burst)).slide a.burstCutoff a.nowTs a.eventId := by
  rw [txCheck_replayStatus hd] at hstatus
  rw [txCheck_scored hd hstatus]
  refine ⟨rfl, ?_⟩
  simp only [Function.update_of_ne hd.burst_session, Function.update_self, members_zset]

theorem userFailKey_ne_ipFailKey (userId ip : String) : userFailKey userId ≠ ipFailKey ip :=
  append_ne_of_incomparable (p := userFailKeyPrefix) (q := ipFailKeyPrefix) (by decide) _ _

/-- A failed login slides both windows and returns their sizes. -/
theorem authReply_eq (cfg : RedisConfig) (now : ℕ) (a : AuthEvent) (ts : ℚ) (db : Db) :
    let user := (members (db (userFailKey a.userId))).slide (ts - cfg.authFailWindowSeconds) ts a.eventId
    let ip := (members (db (ipFailKey a.ipAddress))).slide (ts - cfg.authFailWindowSeconds) ts a.eventId
    (authReply cfg now a ts db).1 = (user.card, ip.card) ∧
      members ((authReply cfg now a ts db).2 (userFailKey a.userId)) = user ∧
      members ((authReply cfg now a ts db).2 (ipFailKey a.ipAddress)) = ip := by
  have hne := userFailKey_ne_ipFailKey a.userId a.ipAddress
  simp only [authReply, authCheck, bind_apply, windowSection_eq, pure_apply, Function.update_of_ne hne.symm,
    Function.update_of_ne hne, Function.update_self, members_zset, and_self]

/-- The decision service reports a burst above its threshold. -/
theorem interpret_any_burst (gcfg : Engine.Config) (tx : Engine.Transaction) (r : TxReply) :
    (Engine.interpret gcfg tx r).any (·.type = "fraud_burst") ↔ gcfg.burstThreshold < r.burstCount := by
  have hite : ∀ (p : Prop) [Decidable p] (x : Engine.Reason),
      (if p then [x] else []).any (·.type = "fraud_burst") = (decide p && decide (x.type = "fraud_burst")) := by
    intro p _ x
    by_cases h : p <;> simp [h]
  simp [Engine.interpret, hite]

/-- What a step does to its window: an event slides it, is counted in it and detected above the threshold;
anything else leaves it alone. -/
theorem WindowStep.cases {l : Option Counted} (h : WindowStep rt cfg scope db l db') :
    (∃ a, l = some a ∧
      members (db' scope.key) = (members (db scope.key)).slide (a.ts - scope.window cfg) a.ts a.eventId ∧
      a.count = (members (db' scope.key)).card ∧ (a.detected ↔ scope.threshold cfg < a.count)) ∨
    (l = none ∧ db' scope.key = db scope.key) := by
  cases h with
  | other db' h => exact Or.inr ⟨rfl, h⟩
  | tx now tx ref ts hscope hts hstatus =>
      subst hscope
      obtain ⟨hcount, hslide⟩ := txCheck_burst (txKeys_distinct rt tx) hstatus
      refine Or.inl ⟨_, rfl, hslide, ?_, ?_⟩
      · rw [hcount, ← hslide]
        rfl
      · simp [burstInterpret, Scope.threshold]
  | decide gcfg now tx hscope hwindow hthreshold hstatus =>
      subst hscope
      obtain ⟨hcount, hslide⟩ := txCheck_burst (Engine.txKeys_distinct rt tx) hstatus
      refine Or.inl ⟨_, rfl, ?_, ?_, ?_⟩
      · simp only [Scope.window, ← hwindow]
        exact hslide
      · exact hcount.trans (congrArg ScoredSet.card hslide.symm)
      · rw [Scope.threshold, ← hthreshold]
        exact interpret_any_burst gcfg tx _
  | authUser now a ts hscope hts =>
      subst hscope
      obtain ⟨hcount, huser, -⟩ := authReply_eq cfg now a ts db
      refine Or.inl ⟨_, rfl, huser, ?_, ?_⟩
      · rw [hcount]
        exact congrArg ScoredSet.card huser.symm
      · simp [stuffingInterpret, stuffingDetection, Scope.threshold]
  | authIp now a ts ip hscope hip hts =>
      subst hscope
      obtain ⟨hcount, -, hip'⟩ := authReply_eq cfg now a ts db
      rw [hip] at hip' hcount
      refine Or.inl ⟨_, rfl, hip', ?_, ?_⟩
      · rw [hcount]
        exact congrArg ScoredSet.card hip'.symm
      · simp [stuffingInterpret, stuffingDetection, Scope.threshold]

/-! ## Runs -/

/-- The window is the one its arrivals leave. -/
theorem members_of_run {labels : List (Option Counted)} (hrun : Run (WindowStep rt cfg scope) db labels db') :
    members (db' scope.key) = slideAll (scope.window cfg) (members (db scope.key)) (arrivals labels) := by
  refine hrun.history (I := fun labels db' => members (db' scope.key)
    = slideAll (scope.window cfg) (members (db scope.key)) (arrivals labels)) rfl fun labels t l u ih hstep => ?_
  obtain ⟨a, rfl, hslide, -, -⟩ | ⟨rfl, hkept⟩ := hstep.cases
  · have hsnoc : arrivals (labels ++ [some a]) = arrivals labels ++ [a.arrival] := by
      simp [arrivals, counted]
    rw [hslide, ih, hsnoc, slideAll_snoc]
    rfl
  · have hsnoc : arrivals (labels ++ [none]) = arrivals labels := by
      simp [arrivals, counted]
    rw [hkept, ih, hsnoc]

/-- A run passes through the call of every event it counts. -/
theorem exists_step_of_counted {step : Db → Option Counted → Db → Prop} {labels : List (Option Counted)}
    (hrun : Run step db labels db') {before after : List Counted} {a : Counted}
    (h : counted labels = before ++ a :: after) :
    ∃ ls t t', Run step db ls t ∧ step t (some a) t' ∧ counted ls = before := by
  obtain ⟨ls, ls', rfl, hbefore, hafter⟩ := List.filterMap_eq_append_iff.mp h
  obtain ⟨quiet, l, ls', rfl, hquiet, rfl, -⟩ := List.filterMap_eq_cons_iff.mp hafter
  rw [← List.append_assoc] at hrun
  obtain ⟨t, t', hrun, hstep, -⟩ := hrun.split
  refine ⟨ls ++ quiet, t, t', hrun, hstep, ?_⟩
  rw [counted, List.filterMap_append, hbefore, List.filterMap_eq_nil_iff.mpr hquiet, List.append_nil]

/-- Every event of a run is counted in the window that the arrivals up to it leave. -/
theorem count_of_run {labels : List (Option Counted)} (hrun : Run (WindowStep rt cfg scope) db labels db')
    {before after : List Counted} {a : Counted} (h : counted labels = before ++ a :: after) :
    a.count = (slideAll (scope.window cfg) (members (db scope.key))
        (before.map Counted.arrival ++ [a.arrival])).card ∧
      (a.detected ↔ scope.threshold cfg < a.count) := by
  obtain ⟨ls, t, t', hrun, hstep, rfl⟩ := exists_step_of_counted hrun h
  obtain ⟨a', heq, hslide, hcount, hdetected⟩ | ⟨hnone, -⟩ := hstep.cases
  · obtain rfl : a = a' := Option.some.inj heq
    refine ⟨?_, hdetected⟩
    rw [hcount, hslide, members_of_run hrun, slideAll_snoc]
    rfl
  · cases hnone

end

namespace Sample

/-- Handling the sample transaction with this id, at this hour and offset. -/
def tally (cfg : RedisConfig) (eventId : String) (hour : Fin 24) (offset : ℕ) (db : Db) : TxReply × Db :=
  txReply antipodes cfg 0 (placed eventId hour (.num 0)) (recordRef "tx-events" 0 offset) (1704067200 + 3600 * hour) db

/-- The event it counts. -/
def tallied (cfg : RedisConfig) (eventId : String) (hour : Fin 24) (offset : ℕ) (db : Db) : Counted where
  eventId := eventId
  ts := 1704067200 + 3600 * hour
  count := (tally cfg eventId hour offset db).1.burstCount
  detected := (burstInterpret cfg (placed eventId hour (.num 0)) (tally cfg eventId hour offset db).1.burstCount).isSome

theorem placed_timestamp (eventId : String) (hour : Fin 24) (x : Flt) :
    (placed eventId hour x).timestamp.timestamp antipodes = .ok (1704067200 + 3600 * hour) := by
  have hcivil : (placed eventId hour x).timestamp.civilSeconds = 1704067200 + 3600 * hour := by
    have hdays : (daysBeforeYear 2024 : ℤ) + daysBeforeMonth 2024 1 + 1 - 719163 = 19723 := by decide +kernel
    simp only [placed, Datetime.civilSeconds, Nat.cast_one, hdays]
    push_cast
    ring
  simp only [Datetime.timestamp, placed] at hcivil ⊢
  rw [hcivil, Int.cast_zero, sub_zero]

theorem tally_step (cfg : RedisConfig) (eventId : String) (hour : Fin 24) (offset : ℕ) (db : Db)
    (hstatus : (tally cfg eventId hour offset db).1.replayStatus ≠ .prescored) :
    WindowStep antipodes cfg (.burst "u1") db (some (tallied cfg eventId hour offset db))
      (tally cfg eventId hour offset db).2 :=
  .tx 0 (placed eventId hour (.num 0)) _ _ rfl (placed_timestamp ..) hstatus

/-- More than one transaction a minute is a burst. -/
def strict : RedisConfig := { burstThreshold := 1 }

def midnight : Fin 24 := ⟨0, by decide⟩

def oneOClock : Fin 24 := ⟨1, by decide⟩

/-- Two transactions at midnight. -/
def one : Counted := tallied strict "e1" midnight 0 fun _ => none

def afterOne : Db := (tally strict "e1" midnight 0 fun _ => none).2

def two : Counted := tallied strict "e2" midnight 1 afterOne

def afterTwo : Db := (tally strict "e2" midnight 1 afterOne).2

theorem step_one : WindowStep antipodes strict (.burst "u1") (fun _ => none) (some one) afterOne :=
  tally_step _ _ _ _ _ (by decide +kernel)

theorem step_two : WindowStep antipodes strict (.burst "u1") afterOne (some two) afterTwo :=
  tally_step _ _ _ _ _ (by decide +kernel)

theorem run_two : Run (WindowStep antipodes strict (.burst "u1")) (fun _ => none) [some one, some two] afterTwo :=
  .cons step_one (.single step_two)

end Sample

/-- For events in order of time, from an empty window on: the count returned is the number of distinct ids
whose latest time is within the window of the current event, and a detection is produced exactly when that
number exceeds the threshold. -/
theorem window_count_exact {rt : Runtime} {cfg : RedisConfig} {scope : Scope} {db db' : Db}
    {labels : List (Option Counted)} (hw : 0 < scope.window cfg) (hstart : db scope.key = none)
    (hrun : Run (WindowStep rt cfg scope) db labels db')
    (horder : (counted labels).Pairwise fun a b => a.ts ≤ b.ts) {before after : List Counted} {a : Counted}
    (h : counted labels = before ++ a :: after) :
    let seen := (before ++ [a]).map Counted.arrival
    a.count = (recentMembers seen (a.ts - scope.window cfg)).card ∧
      (a.detected ↔ scope.threshold cfg < ((recentMembers seen (a.ts - scope.window cfg)).card : ℤ)) := by
  intro seen
  have hseen : seen = before.map Counted.arrival ++ [a.arrival] := List.map_append
  have hsorted : (before.map Counted.arrival ++ [a.arrival]).Pairwise fun a b => a.2 ≤ b.2 := by
    rw [← hseen, List.pairwise_map]
    refine horder.sublist ?_
    rw [h, List.append_cons before a after]
    exact List.sublist_append_left _ _
  obtain ⟨hcount, hdetected⟩ := count_of_run hrun h
  have hexact : a.count = (recentMembers seen (a.ts - scope.window cfg)).card := by
    rw [hcount, hstart, members_none, ← ScoredSet.card_memberSet, memberSet_slideAll _ hw hsorted, hseen]
    rfl
  exact ⟨hexact, by rw [hdetected, hexact]⟩

/-- The second transaction at midnight is counted with the first. -/
theorem window_count_exact_two :
    (recentMembers [("e1", 1704067200), ("e2", 1704067200)] (1704067200 - 60 : ℚ)).card = 2 ∧
      Sample.two.detected := by
  have hw : 0 < Scope.window Sample.strict (.burst "u1") := by decide +kernel
  have hseen : ([Sample.one] ++ [Sample.two]).map Counted.arrival = [("e1", 1704067200), ("e2", 1704067200)] := by
    decide +kernel
  have hcutoff : Sample.two.ts - Scope.window Sample.strict (.burst "u1") = 1704067200 - 60 := by decide +kernel
  have hcount : Sample.two.count = 2 := by decide +kernel
  obtain ⟨hexact, hdetected⟩ := window_count_exact hw rfl Sample.run_two (List.pairwise_pair.mpr (by decide +kernel))
    (show counted [some Sample.one, some Sample.two] = [Sample.one] ++ Sample.two :: [] from rfl)
  rw [hseen, hcutoff] at hexact hdetected
  rw [← hexact, hcount] at hdetected
  exact ⟨hexact.symm.trans hcount, hdetected.mpr (by decide)⟩

/-! ## Events in any order -/

/-- No stored event is dated more than a window after the current one, nor after one that the call keeps. -/
structure Together (w : ℚ) (window : ScoredSet String ℚ) (ts : ℚ) : Prop where
  current : ∀ e ∈ window.entries, e.2 ≤ ts + w
  kept : ∀ e ∈ window.entries, ts - w < e.2 → ∀ e' ∈ window.entries, e'.2 ≤ e.2 + w

/-- A step whose event, if any, comes together with what is stored. -/
def TogetherStep (rt : Runtime) (cfg : RedisConfig) (scope : Scope) (db : Db) (l : Option Counted) (db' : Db) :
    Prop :=
  WindowStep rt cfg scope db l db' ∧ ∀ a ∈ l, Together (scope.window cfg) (members (db scope.key)) a.ts

/-- Then all that the call counts lies within one window. -/
theorem Together.slide {w : ℚ} {window : ScoredSet String ℚ} {ts : ℚ} (hw : 0 ≤ w) (h : Together w window ts)
    (m : String) : ∃ lo, ∀ e ∈ (window.slide (ts - w) ts m).entries, lo ≤ e.2 ∧ e.2 ≤ lo + w := by
  have hne : (window.slide (ts - w) ts m).entries.toFinset.Nonempty :=
    ⟨(m, ts), List.mem_toFinset.mpr (ScoredSet.mem_slide.mpr (Or.inl rfl))⟩
  obtain ⟨first, hfirst, hmin⟩ := Finset.exists_min_image _ Prod.snd hne
  refine ⟨first.2, fun e he => ⟨hmin e (List.mem_toFinset.mpr he), ?_⟩⟩
  rcases ScoredSet.mem_slide.mp (List.mem_toFinset.mp hfirst) with rfl | ⟨hstored, hcut, -⟩
  · rcases ScoredSet.mem_slide.mp he with rfl | ⟨he, -, -⟩
    · exact le_add_of_nonneg_right hw
    · exact h.current e he
  · rcases ScoredSet.mem_slide.mp he with rfl | ⟨he, -, -⟩
    · exact (sub_lt_iff_lt_add.mp hcut).le
    · exact h.kept first hstored hcut e he

/-- As long as every event comes together with what is stored, a detection is justified: more than the
threshold of distinct events lie within one window. -/
theorem burst_justified {rt : Runtime} {cfg : RedisConfig} {userId : String} {db db' : Db}
    {labels : List (Option Counted)} (hw : 0 ≤ cfg.burstWindowSeconds) (hstart : db (burstKey userId) = none)
    (hrun : Run (TogetherStep rt cfg (.burst userId)) db labels db') {before after : List Counted} {a : Counted}
    (h : counted labels = before ++ a :: after) (hdetected : a.detected) :
    ∃ (S : Finset String) (lo : ℚ), cfg.burstThreshold < S.card ∧
      ∀ m ∈ S, ∃ x ∈ before ++ [a], x.eventId = m ∧ lo ≤ x.ts ∧ x.ts ≤ lo + cfg.burstWindowSeconds := by
  obtain ⟨ls, t, t', hrun, ⟨hstep, htogether⟩, rfl⟩ := exists_step_of_counted hrun h
  have hwindow := members_of_run (hrun.mono fun _ _ _ hstep => hstep.1)
  rw [show db (Scope.burst userId).key = none from hstart, members_none] at hwindow
  obtain ⟨a', heq, hslide, hcount, hdetect⟩ | ⟨hnone, -⟩ := hstep.cases
  swap
  · cases hnone
  obtain rfl : a = a' := Option.some.inj heq
  obtain ⟨lo, hlo⟩ := (htogether a rfl).slide (Int.cast_nonneg hw) a.eventId
  refine ⟨(members (t' (Scope.burst userId).key)).memberSet, lo, ?_, fun m hm => ?_⟩
  · rw [ScoredSet.card_memberSet, ← hcount]
    exact hdetect.mp hdetected
  · obtain ⟨ts, hts⟩ := ScoredSet.mem_memberSet.mp hm
    rw [hslide] at hts
    have hbounds := hlo (m, ts) hts
    -- everything counted has arrived
    rw [hwindow] at hts
    have harrived : (m, ts) ∈ (counted ls ++ [a]).map Counted.arrival := by
      rcases ScoredSet.mem_slide.mp hts with heq | ⟨hstored, -, -⟩
      · rw [heq]
        simp [Counted.arrival]
      · rcases (mem_slideAll _).mp hstored with ⟨pre, post, heq, -⟩ | ⟨hempty, -⟩
        · rw [List.map_append, ← arrivals, heq]
          simp
        · cases hempty
    obtain ⟨x, hx, hxa⟩ := List.mem_map.mp harrived
    obtain ⟨rfl, rfl⟩ := Prod.mk.inj hxa
    exact ⟨x, hx, rfl, hbounds⟩

/-- Two transactions at midnight justify their detection. -/
theorem burst_justified_two : Sample.two.detected ∧ ∃ (S : Finset String) (lo : ℚ), 1 < (S.card : ℤ) ∧
    ∀ m ∈ S, ∃ x ∈ [Sample.one] ++ [Sample.two], x.eventId = m ∧ lo ≤ x.ts ∧ x.ts ≤ lo + ((60 : ℤ) : ℚ) := by
  have hdetected : Sample.two.detected := by decide +kernel
  have hstored : (members (Sample.afterOne (burstKey "u1"))).entries = [("e1", 1704067200)] := by decide +kernel
  have hrun : Run (TogetherStep Sample.antipodes Sample.strict (.burst "u1")) (fun _ => none)
      [some Sample.one, some Sample.two] Sample.afterTwo := by
    refine .cons ⟨Sample.step_one, fun a _ => ⟨by simp [ScoredSet.empty], by simp [ScoredSet.empty]⟩⟩
      (.single ⟨Sample.step_two, fun a ha => ?_⟩)
    obtain rfl : Sample.two = a := Option.some.inj ha
    refine ⟨fun e he => ?_, fun e he _ e' he' => ?_⟩
    · rw [Scope.key, hstored, List.mem_singleton] at he
      rw [he]
      decide +kernel
    · rw [Scope.key, hstored, List.mem_singleton] at he he'
      rw [he, he']
      decide +kernel
  exact ⟨hdetected, burst_justified (by decide) rfl hrun
    (show counted [some Sample.one, some Sample.two] = [Sample.one] ++ Sample.two :: [] from rfl) hdetected⟩

namespace Sample

/-- A transaction at one o'clock, and after it one from midnight. -/
def recent : Counted := tallied strict "e1" oneOClock 0 fun _ => none

def afterRecent : Db := (tally strict "e1" oneOClock 0 fun _ => none).2

def late : Counted := tallied strict "e2" midnight 1 afterRecent

end Sample

/-- A transaction that arrives an hour late is counted with the ones an hour after it, and a burst of two is
detected in a minute that holds one. -/
theorem late_event_detected_as_burst :
    Run (WindowStep Sample.antipodes Sample.strict (.burst "u1")) (fun _ => none)
      [some Sample.recent, some Sample.late] (Sample.tally Sample.strict "e2" Sample.midnight 1 Sample.afterRecent).2 ∧
    Sample.late.detected ∧
    ¬ ∃ (S : Finset String) (lo : ℚ), 1 < (S.card : ℤ) ∧
      ∀ m ∈ S, ∃ x ∈ [Sample.recent, Sample.late], x.eventId = m ∧ lo ≤ x.ts ∧ x.ts ≤ lo + 60 := by
  refine ⟨.cons (Sample.tally_step _ _ _ _ _ (by decide +kernel))
    (.single (Sample.tally_step _ _ _ _ _ (by decide +kernel))), by decide +kernel, ?_⟩
  rintro ⟨S, lo, hcard, hS⟩
  have hrecent : Sample.recent.ts = 1704070800 := by decide +kernel
  have hlate : Sample.late.ts = 1704067200 := by decide +kernel
  obtain ⟨m, hm, m', hm', hne⟩ := Finset.one_lt_card.mp (Int.ofNat_lt.mp hcard)
  obtain ⟨x, hx, rfl, hlo, hhi⟩ := hS m hm
  obtain ⟨x', hx', rfl, hlo', hhi'⟩ := hS m' hm'
  rcases List.mem_pair.mp hx with rfl | rfl <;> rcases List.mem_pair.mp hx' with rfl | rfl
  · exact hne rfl
  · linarith
  · linarith
  · exact hne rfl

/-- Every id with a time inside the window of an event at `ts` was last seen with such a time, and no event
since has put that out of its own window. -/
def Unmasked (w : ℚ) (earlier : List (String × ℚ)) (ts : ℚ) : Prop :=
  ∀ m t, (m, t) ∈ earlier → ts - w < t →
    ∃ before t' after, earlier = before ++ (m, t') :: after ∧ ts - w < t' ∧ Spares w after (m, t')

/-- As long as no event arrives masked, a burst is counted: if more than the threshold of distinct events
have times in an interval shorter than the window, some call returns a count above the threshold. -/
theorem burst_counted {rt : Runtime} {cfg : RedisConfig} {userId : String} {db db' : Db}
    {labels : List (Option Counted)} (hrun : Run (WindowStep rt cfg (.burst userId)) db labels db')
    (hunmasked : ∀ before a after, counted labels = before ++ a :: after →
      Unmasked cfg.burstWindowSeconds (before.map Counted.arrival) a.ts)
    {S : Finset String} {lo hi : ℚ} (hS : S.Nonempty) (hshort : hi - lo < cfg.burstWindowSeconds)
    (hburst : ∀ m ∈ S, ∃ x ∈ counted labels, x.eventId = m ∧ lo ≤ x.ts ∧ x.ts ≤ hi)
    (hmany : cfg.burstThreshold < S.card) : ∃ a ∈ counted labels, cfg.burstThreshold < a.count := by
  obtain ⟨m₀, hm₀⟩ := hS
  obtain ⟨x₀, hx₀, -, hx₀ts⟩ := hburst m₀ hm₀
  -- the last event of the burst to arrive
  obtain ⟨before, a, after, hsplit, ⟨-, hahi⟩, hafter⟩ :=
    exists_last (P := fun x : Counted => lo ≤ x.ts ∧ x.ts ≤ hi) ⟨x₀, hx₀, hx₀ts⟩
  obtain ⟨hcount, -⟩ := count_of_run hrun hsplit
  refine ⟨a, by rw [hsplit]; simp, hmany.trans_le ?_⟩
  rw [hcount, ← ScoredSet.card_memberSet]
  refine Int.ofNat_le.mpr (Finset.card_le_card fun m hm => ScoredSet.mem_memberSet.mpr ?_)
  rw [slideAll_snoc]
  by_cases hma : m = a.eventId
  · exact ⟨a.ts, ScoredSet.mem_slide.mpr (Or.inl (by rw [hma]; rfl))⟩
  obtain ⟨x, hx, rfl, hlo, hhi⟩ := hburst m hm
  have hxbefore : x ∈ before := by
    rw [hsplit] at hx
    rcases List.mem_append.mp hx with hx | hx
    · exact hx
    rcases List.mem_cons.mp hx with rfl | hx
    · exact absurd rfl hma
    · exact absurd ⟨hlo, hhi⟩ (hafter x hx)
  obtain ⟨pre, t', post, heq, hcut, hspares⟩ := hunmasked before a after hsplit x.eventId x.ts
    (List.mem_map_of_mem (f := Counted.arrival) hxbefore) (by linarith)
  refine ⟨t', ScoredSet.mem_slide.mpr (Or.inr ⟨?_, hcut, hma⟩)⟩
  exact (mem_slideAll _).mpr (Or.inl ⟨pre, post, heq, hspares⟩)

/-- Two transactions at midnight are counted. -/
theorem burst_counted_two : ∃ a ∈ [Sample.one, Sample.two], 1 < (a.count : ℤ) := by
  have hts : Sample.one.ts = 1704067200 ∧ Sample.two.ts = 1704067200 := by decide +kernel
  refine burst_counted (S := {"e1", "e2"}) Sample.run_two ?_ ⟨"e1", by simp⟩
    (show (1704067200 : ℚ) - 1704067200 < ((60 : ℤ) : ℚ) by norm_num) ?_ (by decide)
  · intro before a after h
    change [Sample.one, Sample.two] = before ++ a :: after at h
    rcases before with _ | ⟨x, before⟩
    · intro m t hm
      simp at hm
    obtain ⟨rfl, htail⟩ := List.cons_eq_cons.mp h
    rcases before with _ | ⟨y, before⟩
    · obtain ⟨rfl, -⟩ := List.cons_eq_cons.mp htail
      intro m t hm hcut
      refine ⟨[], t, [], ?_, hcut, by simp [Spares]⟩
      rw [List.map_cons, List.map_nil, List.mem_singleton] at hm
      rw [hm]
      rfl
    · obtain ⟨-, hnil⟩ := List.cons_eq_cons.mp htail
      simp at hnil
  · intro m hm
    rcases Finset.mem_insert.mp hm with rfl | hm
    · exact ⟨Sample.one, by simp [counted], rfl, hts.1.ge, hts.1.le⟩
    · obtain rfl := Finset.mem_singleton.mp hm
      exact ⟨Sample.two, by simp [counted], rfl, hts.2.ge, hts.2.le⟩

namespace Sample

/-- More than two transactions a minute are a burst. -/
def lenient : RedisConfig := { burstThreshold := 2 }

/-- Two transactions at midnight, one dated an hour ahead, and a third one at midnight. -/
def masked₁ : Db := (tally lenient "e1" midnight 0 fun _ => none).2

def masked₂ : Db := (tally lenient "e2" midnight 1 masked₁).2

def masked₃ : Db := (tally lenient "e4" oneOClock 2 masked₂).2

def masked : List Counted :=
  [tallied lenient "e1" midnight 0 fun _ => none, tallied lenient "e2" midnight 1 masked₁, tallied lenient "e4" oneOClock 2 masked₂,
    tallied lenient "e3" midnight 3 masked₃]

end Sample

/-- One event dated an hour ahead empties the window, and three transactions at midnight are never counted
together. -/
theorem future_event_masks_burst :
    Run (WindowStep Sample.antipodes Sample.lenient (.burst "u1")) (fun _ => none) (Sample.masked.map some)
      (Sample.tally Sample.lenient "e3" Sample.midnight 3 Sample.masked₃).2 ∧
    (∀ m ∈ ({"e1", "e2", "e3"} : Finset String), ∃ x ∈ Sample.masked, x.eventId = m ∧ x.ts = 1704067200) ∧
    2 < (({"e1", "e2", "e3"} : Finset String).card : ℤ) ∧
    ¬ ∃ a ∈ Sample.masked, 2 < (a.count : ℤ) := by
  refine ⟨.cons (Sample.tally_step _ _ _ _ _ (by decide +kernel)) (.cons (Sample.tally_step _ _ _ _ _ (by decide +kernel))
    (.cons (Sample.tally_step _ _ _ _ _ (by decide +kernel)) (.single (Sample.tally_step _ _ _ _ _ (by decide +kernel))))),
    by decide +kernel, by decide, by decide +kernel⟩

end Rtace
