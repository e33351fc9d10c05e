import Rtace.Detection.Pipeline
import Rtace.Lib.Except

/-!
# Batched and record-by-record processing

`handle_batch` reorders Redis commands by phase: all enforcement reads, all scripts, all reads of stored
decisions, all cooldown claims. The phases touch disjoint key families, so a batch equals its records
handled one at a time.
-/

namespace Rtace

open Lib Redis

/-! ## Key families of the phases -/

/-- The keys the scripts read and write. -/
def detectionKeys : Set String :=
  keyFamilies [replayKeyPrefix, burstKeyPrefix, sessionKeyPrefix, userFailKeyPrefix, ipFailKeyPrefix]

/-- The keys of the enforcement rules and of the stored decisions, which the pipeline only reads. -/
def readOnlyKeys : Set String :=
  keyFamilies [quarantineKeyPrefix, ipBlockKeyPrefix, resultKeyPrefix]

/-- The cooldown keys. -/
def cooldownKeys : Set String := keyFamilies [cooldownKeyPrefix]

theorem detectionKeys_disjoint_readOnlyKeys : Disjoint detectionKeys readOnlyKeys :=
  keyFamilies_disjoint (by decide)

theorem notMem_detectionKeys {k : String} (hk : k ∈ readOnlyKeys) : k ∉ detectionKeys :=
  Set.disjoint_right.mp detectionKeys_disjoint_readOnlyKeys hk

theorem cooldownKeys_disjoint : Disjoint (detectionKeys ∪ readOnlyKeys) cooldownKeys := by
  rw [Set.disjoint_union_left]
  exact ⟨keyFamilies_disjoint (by decide), keyFamilies_disjoint (by decide)⟩

theorem enforcementKey_mem (e : Event) : e.enforcementKey ∈ readOnlyKeys := by
  cases e with
  | tx e => exact mem_keyFamilies (by simp) _
  | auth e => exact mem_keyFamilies (by simp) _

theorem resultKey_mem (eventId : String) : resultKey eventId ∈ readOnlyKeys :=
  mem_keyFamilies (by simp) _

theorem cooldownKey_mem (d : DetectionEvent) : cooldownKey d ∈ cooldownKeys :=
  mem_keyFamilies (by simp) _

theorem txKeys_subset (rt : Runtime) (tx : TransactionEvent) :
    ({(txKeys rt tx).replay, (txKeys rt tx).burst, (txKeys rt tx).session} : Set String) ⊆ detectionKeys := by
  rintro k (rfl | rfl | rfl)
  · exact mem_keyFamilies (by simp) _
  · exact mem_keyFamilies (by simp) _
  · exact mem_keyFamilies (by simp) _

/-- Every script call the pipeline queues stays in the detection keys. -/
theorem footprint_queueCheck {rt : Runtime} {cfg : RedisConfig} {now : ℕ} {it : Item}
    {m : Cmd Reply} (h : queueCheck rt cfg now it = .ok m) : Footprint detectionKeys m := by
  rcases hev : it.event with tx | a
  · simp only [queueCheck, hev] at h
    obtain ⟨ts, -, hm⟩ := except_bind_eq_ok.mp h
    obtain rfl := Except.ok.inj hm
    exact ((footprint_txCheck _ _ _ _).mono (txKeys_subset rt tx)).bind fun _ => .pure _ _
  · simp only [queueCheck, hev] at h
    obtain ⟨ts, -, hm⟩ := except_bind_eq_ok.mp h
    obtain rfl := Except.ok.inj hm
    refine ((footprint_authCheck _ _ _ _ _ _ _).mono ?_).bind fun _ => .pure _ _
    rintro k (rfl | rfl)
    · exact mem_keyFamilies (by simp) _
    · exact mem_keyFamilies (by simp) _

/-! ## The phases on two blocks of items -/

/-- The blocked flag phase A gives an item. -/
def mark (db : Db) (it : Item) : Item :=
  if (db it.event.enforcementKey).isSome then { it with blocked := true } else it

theorem zipWith_flags (items : List Item) (db : Db) :
    items.zipWith (fun it flag => if flag then { it with blocked := true } else it)
      (items.map fun it => (db it.event.enforcementKey).isSome) = items.map (mark db) := by
  induction items with
  | nil => rfl
  | cons it items ih =>
      rw [List.map_cons, List.zipWith_cons_cons, ih]
      rfl

theorem enforcePhase_apply (items : List Item) (db : Db) :
    enforcePhase items db = (items.map (mark db), db) := by
  rw [enforcePhase, bind_apply,
    runAll_map_read _ (fun it db => (db it.event.enforcementKey).isSome) (fun _ _ => existsKey_apply _ _),
    pure_apply, zipWith_flags]

theorem decisionFetch_apply (items : List Item) (db : Db) :
    decisionFetch items db
      = ((items.filter (·.prescored)).map fun it => payload (db (resultKey it.event.eventId)), db) :=
  runAll_map_read _ (fun (it : Item) (db : Db) => payload (db (resultKey it.event.eventId)))
    (fun _ _ => get_apply _ _) _ _

theorem assignResults_append (I J : List Item) (rI rJ : List Reply)
    (h : rI.length = (I.filter (·.active)).length) :
    assignResults (I ++ J) (rI ++ rJ) = assignResults I rI ++ assignResults J rJ := by
  induction I generalizing rI with
  | nil =>
      obtain rfl : rI = [] := List.length_eq_zero_iff.mp h
      rfl
  | cons it I ih =>
      by_cases hact : it.active
      · rw [List.filter_cons_of_pos hact, List.length_cons] at h
        obtain ⟨r, rI, rfl⟩ := List.exists_cons_of_length_eq_add_one h
        simp only [List.cons_append, assignResults, if_pos hact]
        rw [ih rI (by simpa using h)]
      · rw [List.filter_cons_of_neg hact] at h
        simp only [List.cons_append, assignResults, if_neg hact]
        rw [ih rI h]

theorem Item.prescored_tx {it : Item} (h : it.prescored) : ∃ tx, it.event = .tx tx := by
  rcases hev : it.event with tx | a
  · exact ⟨tx, rfl⟩
  · simp [Item.prescored, hev] at h

theorem assignDecisions_append (I J : List Item) (rI rJ : List (Option Payload))
    (h : rI.length = (I.filter (·.prescored)).length) :
    (assignDecisions (I ++ J) (rI ++ rJ)).toOption =
      (assignDecisions I rI).toOption.bind fun I' =>
        (assignDecisions J rJ).toOption.map fun J' => I' ++ J' := by
  induction I generalizing rI with
  | nil =>
      obtain rfl : rI = [] := List.length_eq_zero_iff.mp h
      simp [assignDecisions, Except.toOption]
  | cons it I ih =>
      by_cases hpre : it.prescored
      · rw [List.filter_cons_of_pos hpre, List.length_cons] at h
        obtain ⟨raw, rI, rfl⟩ := List.exists_cons_of_length_eq_add_one h
        obtain ⟨tx, htx⟩ := Item.prescored_tx hpre
        simp only [List.cons_append, assignDecisions, if_pos hpre, htx, toOption_bind, toOption_map,
          ih rI (by simpa using h)]
        cases (detectionsFromDecision tx raw).toOption <;> cases (assignDecisions I rI).toOption <;>
          simp [Function.comp_def]
      · rw [List.filter_cons_of_neg hpre] at h
        simp only [List.cons_append, assignDecisions, if_neg hpre, toOption_map, ih rI h]
        cases (assignDecisions I rI).toOption <;> simp [Function.comp_def]


/-- What a successful analysis leaves: audit records, items, keyspace. -/
def analysis (rt : Runtime) (cfg : RedisConfig) (now : ℕ) (items : List Item) (db : Db) :
    Option (List BlockedAudit × List Item × Db) :=
  (analyse rt cfg now items db).1.2.toOption.map fun its =>
    ((analyse rt cfg now items db).1.1, its, (analyse rt cfg now items db).2)

/-- The stored decisions phase C reads for these items. -/
def storedDecisions (db : Db) (items : List Item) : List (Option Payload) :=
  (items.filter (·.prescored)).map fun it => payload (db (resultKey it.event.eventId))

/-- The analysis once the enforcement reads are done. -/
def checked (rt : Runtime) (cfg : RedisConfig) (now : ℕ) (marked : List Item) (db : Db) :
    Option (List BlockedAudit × List Item × Db) :=
  ((marked.filter (·.active)).mapM (queueCheck rt cfg now)).toOption.bind fun calls =>
    let its := (assignResults marked (runAll calls db).1).map (interpretItem cfg)
    (assignDecisions its (storedDecisions (runAll calls db).2 its)).toOption.map fun its =>
      ((marked.filter (·.blocked)).map fun it => blockedAudit it.event, its, (runAll calls db).2)

theorem analysis_eq (rt : Runtime) (cfg : RedisConfig) (now : ℕ) (items : List Item) (db : Db) :
    analysis rt cfg now items db = checked rt cfg now (items.map (mark db)) db := by
  simp only [analysis, analyse, bind_apply, enforcePhase_apply, checked]
  cases hcalls : ((items.map (mark db)).filter (·.active)).mapM (queueCheck rt cfg now) with
  | error e => rfl
  | ok calls =>
      simp only [bind_apply, decisionFetch_apply, pure_apply]
      rfl

/-- Scripts leave every other key alone. -/
theorem runAll_calls_frame {rt : Runtime} {cfg : RedisConfig} {now : ℕ} {items : List Item}
    {calls : List (Cmd Reply)} (h : items.mapM (queueCheck rt cfg now) = .ok calls) (db : Db)
    {k : String} (hk : k ∉ detectionKeys) : (runAll calls db).2 k = db k := by
  have hfoot : Footprint detectionKeys (runAll calls) := by
    refine .runAll fun m hm => ?_
    obtain ⟨it, -, hit⟩ := mem_of_mapM_ok h hm
    exact footprint_queueCheck hit
  exact hfoot.frame db k hk

/-- Phases A to C write detection keys only. -/
theorem analyse_frame (rt : Runtime) (cfg : RedisConfig) (now : ℕ) (items : List Item) (db : Db) {k : String}
    (hk : k ∉ detectionKeys) : (analyse rt cfg now items db).2 k = db k := by
  simp only [analyse, bind_apply, enforcePhase_apply]
  cases hcalls : ((items.map (mark db)).filter (·.active)).mapM (queueCheck rt cfg now) with
  | error e => rfl
  | ok calls =>
      simp only [bind_apply, decisionFetch_apply, pure_apply]
      exact runAll_calls_frame hcalls db hk

theorem mark_congr {db db' : Db} (h : ∀ k ∈ readOnlyKeys, db' k = db k) : mark db' = mark db := by
  funext it
  simp only [mark, h _ (enforcementKey_mem it.event)]

theorem storedDecisions_congr {db db' : Db} (h : ∀ k ∈ readOnlyKeys, db' k = db k) :
    storedDecisions db' = storedDecisions db := by
  funext items
  simp only [storedDecisions, h _ (resultKey_mem _)]

theorem storedDecisions_append (db : Db) (I J : List Item) :
    storedDecisions db (I ++ J) = storedDecisions db I ++ storedDecisions db J := by
  simp only [storedDecisions, List.filter_append, List.map_append]

/-- Checking two blocks of items in one pipeline is checking them in turn. -/
theorem checked_append (rt : Runtime) (cfg : RedisConfig) (now : ℕ) (I J : List Item) (db : Db) :
    checked rt cfg now (I ++ J) db =
      (checked rt cfg now I db).bind fun (audits, I', db') =>
        (checked rt cfg now J db').map fun (audits', J', db'') =>
          (audits ++ audits', I' ++ J', db'') := by
  simp only [checked, List.filter_append, List.mapM_append]
  cases hI : (I.filter (·.active)).mapM (queueCheck rt cfg now) with
  | error e => rfl
  | ok cI =>
  set its := (assignResults I (runAll cI db).1).map (interpretItem cfg) with hits
  cases hJ : (J.filter (·.active)).mapM (queueCheck rt cfg now) with
  | error e =>
      simp only [bind, Except.bind, toOption_ok, toOption_error, Option.bind_none, Option.map_none,
        Option.bind_some]
      cases (assignDecisions its (storedDecisions (runAll cI db).2 its)).toOption <;> rfl
  | ok cJ =>
      set jts := (assignResults J (runAll cJ (runAll cI db).2).1).map (interpretItem cfg) with hjts
      have hlen : (runAll cI db).1.length = (I.filter (·.active)).length := by
        rw [runAll_length, mapM_ok_length hI]
      -- the scripts of the second block do not change the decisions the first block reads
      have hstored : storedDecisions (runAll cJ (runAll cI db).2).2
          = storedDecisions (runAll cI db).2 :=
        storedDecisions_congr fun k hk => runAll_calls_frame hJ _ (notMem_detectionKeys hk)
      simp only [bind, Except.bind, pure, Except.pure, toOption_ok, Option.bind_some,
        runAll_append, assignResults_append _ _ _ _ hlen, List.map_append, storedDecisions_append,
        hstored, ← hits, ← hjts]
      rw [assignDecisions_append its jts _ _ (by simp [storedDecisions])]
      cases (assignDecisions its (storedDecisions (runAll cI db).2 its)).toOption with
      | none => rfl
      | some I' => simp [Function.comp_def, hstored, hjts]

/-- Analysing two blocks of items at once is analysing them in turn. -/
theorem analysis_append (rt : Runtime) (cfg : RedisConfig) (now : ℕ) (I J : List Item) (db : Db) :
    analysis rt cfg now (I ++ J) db =
      (analysis rt cfg now I db).bind fun (audits, I', db') =>
        (analysis rt cfg now J db').map fun (audits', J', db'') =>
          (audits ++ audits', I' ++ J', db'') := by
  simp only [analysis_eq, List.map_append, checked_append]
  refine Option.bind_congr fun out hout => ?_
  obtain ⟨audits, I', db'⟩ := out
  -- the first block left the rules as they were, so the second block reads the same flags
  have hrules : ∀ k ∈ readOnlyKeys, db' k = db k := by
    intro k hk
    simp only [checked, Option.bind_eq_some_iff, Option.map_eq_some_iff] at hout
    obtain ⟨calls, hcalls, its, -, heq⟩ := hout
    obtain rfl : (runAll calls db).2 = db' := congrArg (·.2.2) heq
    exact runAll_calls_frame (toOption_eq_some.mp hcalls) db (notMem_detectionKeys hk)
  dsimp only
  rw [mark_congr hrules]

/-! ## The cooldown on two blocks of candidates -/

/-- The cooldown touches the keys of its candidates only. -/
theorem footprint_filterCooledDown_of {S : Set String} (cfg : RedisConfig) (now : ℕ) {ds : List DetectionEvent}
    (hS : ∀ d ∈ ds, cooldownKey d ∈ S) : Footprint S (filterCooledDown cfg now ds) := by
  unfold filterCooledDown
  split
  · exact .pure _ _
  split
  · exact .pure _ _
  refine (Footprint.runAll fun m hm => ?_).bind fun _ => .pure _ _
  obtain ⟨d, hd, rfl⟩ := List.mem_map.mp hm
  have hclaim : Footprint {cooldownKey d} (cooldownClaim cfg now d) := by
    unfold cooldownClaim
    exact .atKey _ _
  exact hclaim.mono (Set.singleton_subset_iff.mpr (hS d hd))

theorem footprint_filterCooledDown (cfg : RedisConfig) (now : ℕ) (ds : List DetectionEvent) :
    Footprint cooldownKeys (filterCooledDown cfg now ds) :=
  footprint_filterCooledDown_of cfg now fun d _ => cooldownKey_mem d

theorem cooldownWinners_append (a b : List DetectionEvent) (x y : List Bool)
    (h : x.length = a.length) :
    cooldownWinners (a ++ b) (x ++ y) = cooldownWinners a x ++ cooldownWinners b y := by
  simp only [cooldownWinners, List.zip_append h.symm, List.filter_append, List.map_append]

/-- Claiming for two blocks of candidates at once is claiming for them in turn. -/
theorem filterCooledDown_append (cfg : RedisConfig) (now : ℕ) (a b : List DetectionEvent) (db : Db) :
    filterCooledDown cfg now (a ++ b) db =
      let x := filterCooledDown cfg now a db
      let y := filterCooledDown cfg now b x.2
      ((x.1.1 ++ y.1.1, x.1.2 ++ y.1.2), y.2) := by
  rcases a with _ | ⟨d, a⟩
  · rfl
  by_cases hoff : cfg.detectionCooldownSeconds ≤ 0
  · rcases b with _ | ⟨e, b⟩
    · simp [filterCooledDown, hoff]
    · simp [filterCooledDown, hoff]
  rcases b with _ | ⟨e, b⟩
  · simp [filterCooledDown, hoff]
  have hlen : (runAll ((d :: a).map (cooldownClaim cfg now)) db).1.length = (d :: a).length := by
    rw [runAll_length, List.length_map]
  simp only [filterCooledDown, List.cons_append, List.isEmpty_cons, Bool.false_eq_true, if_false,
    hoff, bind_apply, pure_apply]
  rw [← List.cons_append, List.map_append, runAll_append, cooldownWinners_append _ _ _ _ hlen,
    List.map_append]

/-! ## Batches -/

theorem footprint_analyse (rt : Runtime) (cfg : RedisConfig) (now : ℕ) (items : List Item) :
    Footprint (detectionKeys ∪ readOnlyKeys) (analyse rt cfg now items) := by
  have hread : ∀ {k : String}, k ∈ readOnlyKeys → ({k} : Set String) ⊆ detectionKeys ∪ readOnlyKeys := by
    rintro k hk _ rfl
    exact Or.inr hk
  refine Footprint.bind ?_ fun marked => ?_
  · refine (Footprint.runAll fun m hm => ?_).bind fun _ => .pure _ _
    obtain ⟨it, -, rfl⟩ := List.mem_map.mp hm
    exact (Footprint.atKey _ _).mono (hread (enforcementKey_mem it.event))
  · dsimp only
    split
    · exact .pure _ _
    · rename_i calls hcalls
      refine (Footprint.runAll fun m hm => ?_).bind fun results => ?_
      · obtain ⟨it, -, hit⟩ := mem_of_mapM_ok hcalls hm
        exact (footprint_queueCheck hit).mono Set.subset_union_left
      · refine Footprint.bind (.runAll fun m hm => ?_) fun _ => .pure _ _
        obtain ⟨it, -, rfl⟩ := List.mem_map.mp hm
        exact (Footprint.atKey _ _).mono (hread (resultKey_mem _))

/-- Cooldown claims made before an analysis may as well be made after it. -/
theorem analysis_after_cooldown (rt : Runtime) (cfg : RedisConfig) (now : ℕ) (items : List Item)
    (ds : List DetectionEvent) (db : Db) :
    analysis rt cfg now items (filterCooledDown cfg now ds db).2 =
      (analysis rt cfg now items db).map fun (audits, its, db') =>
        (audits, its, (filterCooledDown cfg now ds db').2) := by
  have hclaim := footprint_filterCooledDown cfg now ds
  have hrun := footprint_analyse rt cfg now items
  simp only [analysis, hclaim.reply_of_disjoint hrun cooldownKeys_disjoint.symm,
    hclaim.comm hrun cooldownKeys_disjoint.symm, Option.map_map, Function.comp_def]

/-- A call writes detection and cooldown keys only, whether it returns or raises. -/
theorem handleBatch_frame (rt : Runtime) (kafka : KafkaConfig) (cfg : RedisConfig) (now : ℕ)
    (records : List DecodedRecord) (db : Db) {k : String} (hk : k ∉ detectionKeys) (hcool : k ∉ cooldownKeys) :
    (handleBatch rt kafka cfg now records db).2 k = db k := by
  simp only [handleBatch, bind_apply, pure_apply, runItems]
  split
  · rfl
  · simp only [bind_apply]
    have hana := analyse_frame rt cfg now (validateRecords rt kafka 0 records).1 db hk
    rcases hout : analyse rt cfg now (validateRecords rt kafka 0 records).1 db with ⟨⟨audits, _ | its⟩, db'⟩
    · rw [hout] at hana
      exact hana
    · rw [hout] at hana
      exact ((footprint_filterCooledDown cfg now (collectCandidates rt its)).frame db' k hcool).trans hana

/-- What a successful call leaves: audit records, result, keyspace. -/
def succeeded (out : BatchRun × Db) : Option (List BlockedAudit × BatchResult × Db) :=
  out.1.result.toOption.map fun r => (out.1.audits, r, out.2)

theorem succeeded_eq_some {out : BatchRun × Db} {audits : List BlockedAudit} {r : BatchResult}
    {db : Db} : succeeded out = some (audits, r, db) ↔ out = (⟨audits, .ok r⟩, db) := by
  obtain ⟨⟨a, res⟩, d⟩ := out
  cases res with
  | error e => simp [succeeded]
  | ok r' => simp [succeeded, and_assoc]

/-- The result of `_run` on a list of items. -/
theorem succeeded_runItems (rt : Runtime) (cfg : RedisConfig) (now : ℕ) (items : List Item) (db : Db) :
    succeeded (runItems rt cfg now items db) =
      (analysis rt cfg now items db).map fun (audits, its, db') =>
        let c := filterCooledDown cfg now (collectCandidates rt its) db'
        (audits, ⟨c.1.1, [], c.1.2⟩, c.2) := by
  rcases items with _ | ⟨it, items⟩
  · rfl
  simp only [runItems, List.isEmpty_cons, Bool.false_eq_true, if_false, bind_apply, analysis]
  rcases analyse rt cfg now (it :: items) db with ⟨⟨audits, _ | its⟩, db'⟩
  · rfl
  · simp only [bind_apply, pure_apply]
    rfl

/-- The concatenation of two results. -/
def BatchResult.append (a b : BatchResult) : BatchResult :=
  ⟨a.emitted ++ b.emitted, a.failures ++ b.failures, a.claimedCooldownKeys ++ b.claimedCooldownKeys⟩

/-- Two blocks of items in one batch, or one after the other. -/
theorem succeeded_runItems_append (rt : Runtime) (cfg : RedisConfig) (now : ℕ) (I J : List Item)
    (db : Db) :
    succeeded (runItems rt cfg now (I ++ J) db) =
      (succeeded (runItems rt cfg now I db)).bind fun (audits, r, db') =>
        (succeeded (runItems rt cfg now J db')).map fun (audits', r', db'') =>
          (audits ++ audits', r.append r', db'') := by
  simp only [succeeded_runItems, analysis_append]
  cases analysis rt cfg now I db with
  | none => rfl
  | some out =>
      obtain ⟨audits, I', db'⟩ := out
      simp only [Option.bind_some, Option.map_some, Option.map_map, analysis_after_cooldown]
      refine Option.map_congr fun out hout => ?_
      obtain ⟨audits', J', db''⟩ := out
      -- the claims of the first block are answered alike before and after the second analysis
      have hclaim : ∀ ds, (filterCooledDown cfg now ds db'').1 = (filterCooledDown cfg now ds db').1 := by
        intro ds
        obtain ⟨its, -, heq⟩ := Option.map_eq_some_iff.mp hout
        obtain rfl : (analyse rt cfg now J db').2 = db'' := congrArg (·.2.2) heq
        exact (footprint_analyse rt cfg now J).reply_of_disjoint
          (footprint_filterCooledDown cfg now ds) cooldownKeys_disjoint db'
      simp only [Function.comp_apply, collectCandidates, List.flatMap_append, filterCooledDown_append,
        BatchResult.append, List.append_nil, hclaim]

/-- `handle_batch` on each record alone, in order, from index `i` on; results are concatenated and the
failure of a single record is reported under its own index. -/
def handleEach (rt : Runtime) (kafka : KafkaConfig) (cfg : RedisConfig) (now : ℕ) :
    ℕ → List DecodedRecord → Cmd BatchRun
  | _, [] => pure ⟨[], .ok ⟨[], [], []⟩⟩
  | i, r :: rs => do
      let head ← handleBatch rt kafka cfg now [r]
      let tail ← handleEach rt kafka cfg now (i + 1) rs
      pure ⟨head.audits ++ tail.audits, head.result.bind fun a => tail.result.map fun b =>
        ({ a with failures := a.failures.map fun f => (f.1 + i, f.2) } : BatchResult).append b⟩

theorem validateRecords_cons_items (rt : Runtime) (kafka : KafkaConfig) (i j : ℕ) (r : DecodedRecord)
    (rs : List DecodedRecord) :
    (validateRecords rt kafka i (r :: rs)).1
      = (validateRecords rt kafka 0 [r]).1 ++ (validateRecords rt kafka j rs).1 := by
  have hindex : ∀ (rs : List DecodedRecord) (i j : ℕ),
      (validateRecords rt kafka i rs).1 = (validateRecords rt kafka j rs).1 := by
    intro rs
    induction rs with
    | nil => intro i j; rfl
    | cons r rs ih =>
        intro i j
        simp only [validateRecords, ih (i + 1) (j + 1)]
        split <;> rfl
  simp only [validateRecords, hindex rs (i + 1) j]
  split <;> rfl

theorem validateRecords_cons_failures (rt : Runtime) (kafka : KafkaConfig) (i : ℕ) (r : DecodedRecord)
    (rs : List DecodedRecord) :
    (validateRecords rt kafka i (r :: rs)).2
      = ((validateRecords rt kafka 0 [r]).2.map fun f => (f.1 + i, f.2)) ++
        (validateRecords rt kafka (i + 1) rs).2 := by
  simp only [validateRecords]
  split <;> simp

theorem succeeded_handleBatch (rt : Runtime) (kafka : KafkaConfig) (cfg : RedisConfig) (now : ℕ)
    (records : List DecodedRecord) (db : Db) :
    succeeded (handleBatch rt kafka cfg now records db) =
      (succeeded (runItems rt cfg now (validateRecords rt kafka 0 records).1 db)).map
        fun (audits, r, db') =>
          (audits, { r with failures := (validateRecords rt kafka 0 records).2 }, db') := by
  simp only [handleBatch, bind_apply, pure_apply, succeeded, toOption_map, Option.map_map]
  rfl

/-- Handling records one at a time is running their items in one batch, with the failures of the
records under their own indices. -/
theorem succeeded_handleEach (rt : Runtime) (kafka : KafkaConfig) (cfg : RedisConfig) (now : ℕ)
    (records : List DecodedRecord) (i : ℕ) (db : Db) :
    succeeded (handleEach rt kafka cfg now i records db) =
      (succeeded (runItems rt cfg now (validateRecords rt kafka i records).1 db)).map
        fun (audits, r, db') =>
          (audits, { r with failures := (validateRecords rt kafka i records).2 }, db') := by
  induction records generalizing i db with
  | nil => rfl
  | cons r rs ih =>
      have hstep : succeeded (handleEach rt kafka cfg now i (r :: rs) db) =
          (succeeded (handleBatch rt kafka cfg now [r] db)).bind fun (audits, a, db') =>
            (succeeded (handleEach rt kafka cfg now (i + 1) rs db')).map fun (audits', b, db'') =>
              (audits ++ audits', ({ a with failures := a.failures.map fun f => (f.1 + i, f.2) } :
                BatchResult).append b, db'') := by
        simp only [handleEach, bind_apply, pure_apply, succeeded]
        rcases (handleBatch rt kafka cfg now [r] db) with ⟨⟨audits, _ | a⟩, db'⟩
        · rfl
        simp only [toOption_ok, Option.map_some, Option.bind_some]
        rcases (handleEach rt kafka cfg now (i + 1) rs db') with ⟨⟨audits', _ | b⟩, db''⟩
        · rfl
        · rfl
      rw [hstep, succeeded_handleBatch, validateRecords_cons_items rt kafka i (i + 1),
        succeeded_runItems_append, validateRecords_cons_failures rt kafka i r rs]
      simp only [ih]
      cases succeeded (runItems rt cfg now (validateRecords rt kafka 0 [r]).1 db) with
      | none => rfl
      | some out => simp [Function.comp_def, BatchResult.append]

/-- A batch equals its records handled one at a time: as long as nothing but validation fails, both
leave the same keyspace, the same detections and audit records in the same order, the same claimed
cooldown keys and the same failed indices; and one raises exactly when the other does. -/
theorem handleBatch_iff_handleEach (rt : Runtime) (kafka : KafkaConfig) (cfg : RedisConfig) (now : ℕ)
    (records : List DecodedRecord) (db db' : Db) (audits : List BlockedAudit) (r : BatchResult) :
    handleBatch rt kafka cfg now records db = (⟨audits, .ok r⟩, db') ↔
      handleEach rt kafka cfg now 0 records db = (⟨audits, .ok r⟩, db') := by
  rw [← succeeded_eq_some, ← succeeded_eq_some, succeeded_handleBatch, succeeded_handleEach]

end Rtace
