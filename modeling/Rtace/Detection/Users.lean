import Rtace.Detection.Produced

/-!
# Users do not influence each other

The checks of a transaction read and write keys of its own user and payload, and read rules and stored
decisions that no check writes. Dropping the transactions of all other users from a stream therefore
changes nothing for a user: not the candidates, not what is emitted, not the state left behind.
-/

namespace Rtace

open Lib Redis

section

variable (rt : Runtime) (kafka : KafkaConfig) (cfg : RedisConfig)

/-- The candidates of batches handled in turn, each at its time, what they emit, and the keyspace they
leave; `none` if one of them raises. -/
def handleBatches : List (ℕ × List (TxRecord rt kafka)) → Db → Option (List DetectionEvent × List DetectionEvent × Db)
  | [], db => some ([], [], db)
  | (now, rs) :: rest, db => do
      let records := rs.map (·.record)
      let cands ← (candidates rt cfg now (validateRecords rt kafka 0 records).1 db).toOption
      let (_, r, db') ← succeeded (handleBatch rt kafka cfg now records db)
      let (cands', emitted', db'') ← handleBatches rest db'
      pure (cands ++ cands', r.emitted ++ emitted', db'')

variable {rt kafka} in
/-- The records of the batches in order, each with the time it is handled at. -/
def timed (batches : List (ℕ × List (TxRecord rt kafka))) : List (ℕ × TxRecord rt kafka) :=
  batches.flatMap fun b => b.2.map fun r => (b.1, r)

/-- The check of one record and its cooldown: the candidates, and what is emitted. -/
def visit (x : ℕ × TxRecord rt kafka) : Cmd (Except PyError (List DetectionEvent × List DetectionEvent)) := do
  let found ← scanTx rt cfg x.1 x.2.tx x.2.ref
  match found with
  | .error e => pure (.error e)
  | .ok ds => do
      let (emitted, _) ← filterCooledDown cfg x.1 (ds.map (assignStableId rt x.2.ref))
      pure (.ok (ds.map (assignStableId rt x.2.ref), emitted))

/-- The records visited one at a time. -/
def visitAll : List (ℕ × TxRecord rt kafka) → Db → Option (List DetectionEvent × List DetectionEvent × Db)
  | [], db => some ([], [], db)
  | x :: xs, db => do
      let (cands, emitted) ← (visit rt kafka cfg x db).1.toOption
      let (cands', emitted', db'') ← visitAll xs (visit rt kafka cfg x db).2
      pure (cands ++ cands', emitted ++ emitted', db'')

end

/-! ## Batches are their records in turn -/

section

variable {rt : Runtime} {kafka : KafkaConfig} {cfg : RedisConfig} {now : ℕ}

/-- Cooldown claims made before the checks may as well be made after them. -/
theorem scanned_after_cooldown (items : List Item) (ds : List DetectionEvent) (db : Db) :
    scanned rt cfg now items (filterCooledDown cfg now ds db).2 =
      (scanned rt cfg now items db).map fun (cands, db') => (cands, (filterCooledDown cfg now ds db').2) := by
  simp only [scanned, analysis_after_cooldown, Option.map_map, Function.comp_def]

/-- The checks do not change what the cooldown answers. -/
theorem filterCooledDown_after_scanned {items : List Item} {db db' : Db} {cands : List DetectionEvent}
    (h : scanned rt cfg now items db = some (cands, db')) (ds : List DetectionEvent) :
    (filterCooledDown cfg now ds db').1 = (filterCooledDown cfg now ds db).1 := by
  obtain ⟨⟨audits, its, F⟩, hana, heq⟩ := Option.map_eq_some_iff.mp h
  cases heq
  exact ((footprint_filterCooledDown cfg now ds).congr _ _ fun k hk => analysis_cooldown hana hk).1

/-- The candidates of a batch, what it emits, and the keyspace it leaves. -/
def outcome (rt : Runtime) (cfg : RedisConfig) (now : ℕ) (items : List Item) (db : Db) :
    Option (List DetectionEvent × List DetectionEvent × Db) :=
  (scanned rt cfg now items db).map fun (cands, db') =>
    (cands, (filterCooledDown cfg now cands db').1.1, (filterCooledDown cfg now cands db').2)

/-- A batch is its first record, and the batch of the rest. -/
theorem outcome_cons (x : ℕ × TxRecord rt kafka) (items : List Item) (db : Db) :
    outcome rt cfg x.1 ({ event := .tx x.2.tx, ref := x.2.ref } :: items) db =
      (visit rt kafka cfg x db).1.toOption.bind fun (cands, emitted) =>
        (outcome rt cfg x.1 items (visit rt kafka cfg x db).2).map fun (cands', emitted', db'') =>
          (cands ++ cands', emitted ++ emitted', db'') := by
  have hfresh : Item.Fresh { event := .tx x.2.tx, ref := x.2.ref } := rfl
  rw [outcome, scanned_cons hfresh]
  simp only [Item.advance, Item.scan, visit, bind_apply]
  rcases scanTx rt cfg x.1 x.2.tx x.2.ref db with ⟨_ | ds, db₁⟩
  · rfl
  simp only [toOption_ok, Option.bind_some, bind_apply, pure_apply, outcome, scanned_after_cooldown, Option.map_map]
  refine Option.map_congr fun out hout => ?_
  obtain ⟨rest, db'⟩ := out
  simp only [Function.comp_apply, filterCooledDown_append, filterCooledDown_after_scanned hout]

/-- What a batch of transactions does, record by record. -/
theorem outcome_visitAll (now : ℕ) (rs : List (TxRecord rt kafka)) (db : Db) :
    outcome rt cfg now (rs.map fun r => { event := .tx r.tx, ref := r.ref }) db =
      visitAll rt kafka cfg (rs.map fun r => (now, r)) db := by
  induction rs generalizing db with
  | nil => rfl
  | cons r rs ih =>
      rw [List.map_cons, List.map_cons, outcome_cons (now, r), visitAll]
      simp only [ih, bind, pure]
      refine Option.bind_congr fun out _ => ?_
      rw [Option.map_eq_bind]
      rfl

theorem validateRecords_txs (rt : Runtime) (kafka : KafkaConfig) (i : ℕ) (rs : List (TxRecord rt kafka)) :
    validateRecords rt kafka i (rs.map (·.record)) = (rs.map fun r => { event := .tx r.tx, ref := r.ref }, []) := by
  induction rs generalizing i with
  | nil => rfl
  | cons r rs ih => simp [validateRecords, ih, r.topic_ne, r.valid, TxRecord.ref]

theorem visitAll_append (xs ys : List (ℕ × TxRecord rt kafka)) (db : Db) :
    visitAll rt kafka cfg (xs ++ ys) db =
      (visitAll rt kafka cfg xs db).bind fun (cands, emitted, db') =>
        (visitAll rt kafka cfg ys db').map fun (cands', emitted', db'') =>
          (cands ++ cands', emitted ++ emitted', db'') := by
  induction xs generalizing db with
  | nil => simp [visitAll]
  | cons x xs ih =>
      simp only [List.cons_append, visitAll, ih, bind, pure, Option.bind_assoc, Option.map_eq_bind]
      simp

/-- Batches are their records visited in turn. -/
theorem handleBatches_eq (batches : List (ℕ × List (TxRecord rt kafka))) (db : Db) :
    handleBatches rt kafka cfg batches db = visitAll rt kafka cfg (timed batches) db := by
  induction batches generalizing db with
  | nil => rfl
  | cons b batches ih =>
      obtain ⟨now, rs⟩ := b
      rw [timed, List.flatMap_cons, visitAll_append, ← outcome_visitAll, ← timed]
      simp only [handleBatches, succeeded_handleBatch, succeeded_runItems, candidates, toOption_map, outcome, scanned,
        analysis, validateRecords_txs, ih]
      cases (analyse rt cfg now (rs.map fun r => { event := .tx r.tx, ref := r.ref }) db).1.2.toOption with
      | none => rfl
      | some its =>
          simp only [bind, Option.bind_some, Option.map_eq_bind]
          rfl

end

/-! ## The keys of a user -/

/-- The cooldown keys of a user. -/
def userCooldown (u : String) : Set String :=
  {k | ∃ type ∈ producedTypes, k = cooldownKeyPrefix ++ (type ++ ":" ++ ("user:" ++ u))}

/-- The burst, session and cooldown state of a user. -/
def userState (u : String) : Set String := {burstKey u, sessionKey u} ∪ userCooldown u

theorem burstKey_injective : Function.Injective burstKey := by
  intro u v h
  exact (String.append_left_inj ":1m").mp ((String.append_right_inj burstKeyPrefix).mp h)

theorem sessionKey_injective : Function.Injective sessionKey := fun _ _ h =>
  (String.append_right_inj sessionKeyPrefix).mp h

theorem userCooldown_subset (u : String) : userCooldown u ⊆ cooldownKeys := by
  rintro k ⟨type, -, rfl⟩
  exact mem_keyFamilies (by simp) _

/-- The types tell the keys apart, and under one type the user does. -/
theorem userCooldown_disjoint {u v : String} (h : u ≠ v) : Disjoint (userCooldown u) (userCooldown v) := by
  refine Set.disjoint_left.mpr ?_
  rintro k ⟨type, htype, rfl⟩ ⟨type', htype', heq⟩
  have heq := (String.append_right_inj cooldownKeyPrefix).mp heq
  rcases producedTypes_incomparable type htype type' htype' with rfl | hne
  · exact h ((String.append_right_inj "user:").mp ((String.append_right_inj (type ++ ":")).mp heq))
  · exact append_ne_of_incomparable hne _ _ heq

/-- A finding about a transaction is under a cooldown key of its user. -/
theorem TxFinding.cooldownKey_mem {tx : TransactionEvent} {d : DetectionEvent} (h : TxFinding tx d) :
    cooldownKey d ∈ userCooldown tx.userId := by
  refine ⟨d.detectionType, List.mem_cons_of_mem _ h.type, ?_⟩
  rw [cooldownKey, cooldownSubject, h.scopedIp, h.userId]

/-- The keys that the records of `u` read or write, with all rules and stored decisions. -/
def reach {rt : Runtime} {kafka : KafkaConfig} (records : List (ℕ × TxRecord rt kafka)) (u : String) : Set String :=
  userState u ∪ readOnlyKeys ∪ {k | ∃ x ∈ records, x.2.tx.userId = u ∧ k = replayKey (x.2.tx.replayHash rt)}

section

variable {rt : Runtime} {kafka : KafkaConfig} {cfg : RedisConfig}

/-- The visit of a record of `u` stays in the reach of `u`. -/
theorem footprint_visit (cfg : RedisConfig) {records : List (ℕ × TxRecord rt kafka)} {x : ℕ × TxRecord rt kafka}
    (hx : x ∈ records) :
    Footprint (reach records x.2.tx.userId) (visit rt kafka cfg x) := by
  refine (footprint_scanTx rt cfg x.1 x.2.tx x.2.ref ?_ ?_ ?_).bind_reply fun db => ?_
  · exact Or.inl (Or.inr (enforcementKey_mem (.tx x.2.tx)))
  · exact Or.inl (Or.inr (resultKey_mem _))
  · rintro k (rfl | rfl | rfl)
    · exact Or.inr ⟨x, hx, rfl, rfl⟩
    · exact Or.inl (Or.inl (Or.inl (Or.inl rfl)))
    · exact Or.inl (Or.inl (Or.inl (Or.inr rfl)))
  · dsimp only
    split
    · exact .pure _ _
    · rename_i ds hds
      refine (footprint_filterCooledDown_of cfg x.1 fun d hd => ?_).bind fun _ => .pure _ _
      obtain ⟨d₀, hd₀, rfl⟩ := List.mem_map.mp hd
      rw [cooldownKey_assignStableId]
      exact Or.inl (Or.inl (Or.inr (scanTx_about hds hd₀).finding.cooldownKey_mem))

/-- The visit of a record writes the keys of its script and cooldown keys of its user. -/
theorem visit_frame (x : ℕ × TxRecord rt kafka) (db : Db) {k : String}
    (hscript : k ∉ ({(txKeys rt x.2.tx).replay, (txKeys rt x.2.tx).burst, (txKeys rt x.2.tx).session} : Set String))
    (hcooldown : k ∉ userCooldown x.2.tx.userId) : (visit rt kafka cfg x db).2 k = db k := by
  have hscan : (scanTx rt cfg x.1 x.2.tx x.2.ref db).2 k = db k :=
    scanTx_script_frame rt cfg x.1 x.2.tx x.2.ref db hscript
  rw [← hscan]
  simp only [visit, bind_apply]
  cases hfound : (scanTx rt cfg x.1 x.2.tx x.2.ref db).1 with
  | error e => rfl
  | ok ds =>
      have hfoot : Footprint (userCooldown x.2.tx.userId)
          (filterCooledDown cfg x.1 (ds.map (assignStableId rt x.2.ref))) := by
        refine footprint_filterCooledDown_of cfg x.1 fun d hd => ?_
        obtain ⟨d₀, hd₀, rfl⟩ := List.mem_map.mp hd
        rw [cooldownKey_assignStableId]
        exact (scanTx_about hfound hd₀).finding.cooldownKey_mem
      exact hfoot.frame _ _ hcooldown

/-- The visit of a record of another user, with another payload, changes nothing in the reach of `u`. -/
theorem visit_other {records : List (ℕ × TxRecord rt kafka)} {x : ℕ × TxRecord rt kafka} {u : String}
    (hu : x.2.tx.userId ≠ u)
    (hkeys : ∀ y ∈ records, y.2.tx.userId = u → replayKey (y.2.tx.replayHash rt) ≠ replayKey (x.2.tx.replayHash rt))
    (db : Db) {k : String} (hk : k ∈ reach records u) : (visit rt kafka cfg x db).2 k = db k := by
  have hdetection : ∀ {k}, k ∈ detectionKeys → k ∉ userCooldown x.2.tx.userId := fun hk h =>
    Set.disjoint_left.mp cooldownKeys_disjoint (Or.inl hk) (userCooldown_subset _ h)
  rcases hk with (((rfl | rfl) | hk) | hk) | ⟨y, hy, hyu, rfl⟩
  · refine visit_frame x db ?_ (hdetection (mem_keyFamilies (by simp) _))
    rintro (h | h | h)
    · exact append_ne_of_incomparable (p := burstKeyPrefix) (q := replayKeyPrefix) (by decide) _ _ h
    · exact hu (burstKey_injective h).symm
    · exact append_ne_of_incomparable (p := burstKeyPrefix) (q := sessionKeyPrefix) (by decide) _ _ h
  · refine visit_frame x db ?_ (hdetection (mem_keyFamilies (by simp) _))
    rintro (h | h | h)
    · exact append_ne_of_incomparable (p := sessionKeyPrefix) (q := replayKeyPrefix) (by decide) _ _ h
    · exact append_ne_of_incomparable (p := sessionKeyPrefix) (q := burstKeyPrefix) (by decide) _ _ h
    · exact hu (sessionKey_injective h).symm
  · refine visit_frame x db (fun h => ?_) (Set.disjoint_left.mp (userCooldown_disjoint hu.symm) hk)
    exact Set.disjoint_left.mp cooldownKeys_disjoint (Or.inl (txKeys_subset rt x.2.tx h)) (userCooldown_subset _ hk)
  · refine visit_frame x db (fun h => ?_) fun h => ?_
    · exact Set.disjoint_right.mp detectionKeys_disjoint_readOnlyKeys hk (txKeys_subset rt x.2.tx h)
    · exact Set.disjoint_left.mp cooldownKeys_disjoint (Or.inr hk) (userCooldown_subset _ h)
  · refine visit_frame x db ?_ (hdetection (mem_keyFamilies (by simp) _))
    rintro (h | h | h)
    · exact hkeys y hy hyu h
    · exact append_ne_of_incomparable (p := replayKeyPrefix) (q := burstKeyPrefix) (by decide) _ _ h
    · exact append_ne_of_incomparable (p := replayKeyPrefix) (q := sessionKeyPrefix) (by decide) _ _ h

/-- The candidates of a visit are about the user of the record, and so is what it emits. -/
theorem visit_userId {x : ℕ × TxRecord rt kafka} {db : Db} {cands emitted : List DetectionEvent}
    (h : (visit rt kafka cfg x db).1 = .ok (cands, emitted)) :
    (∀ d ∈ cands, d.userId = x.2.tx.userId) ∧ ∀ d ∈ emitted, d.userId = x.2.tx.userId := by
  simp only [visit, bind_apply] at h
  cases hfound : (scanTx rt cfg x.1 x.2.tx x.2.ref db).1 with
  | error e =>
      rw [hfound] at h
      cases h
  | ok ds =>
      rw [hfound] at h
      cases h
      have hcands : ∀ d ∈ ds.map (assignStableId rt x.2.ref), d.userId = x.2.tx.userId := by
        intro d hd
        obtain ⟨d₀, hd₀, rfl⟩ := List.mem_map.mp hd
        exact (scanTx_about hfound hd₀).userId
      exact ⟨hcands, fun d hd => hcands d (mem_of_mem_filterCooledDown hd)⟩

/-- On keyspaces that agree in the reach of `u`, the records of `u` give alone what they give among others. -/
theorem visitAll_own {records : List (ℕ × TxRecord rt kafka)} {u : String}
    (hkeys : ∀ x ∈ records, ∀ y ∈ records, x.2.tx.userId ≠ y.2.tx.userId →
      replayKey (x.2.tx.replayHash rt) ≠ replayKey (y.2.tx.replayHash rt))
    {xs : List (ℕ × TxRecord rt kafka)} (hxs : xs ⊆ records) {s t s' : Db} {cands emitted : List DetectionEvent}
    (h : visitAll rt kafka cfg xs s = some (cands, emitted, s')) (hst : ∀ k ∈ reach records u, s k = t k) :
    ∃ t', visitAll rt kafka cfg (xs.filter fun x => x.2.tx.userId = u) t =
        some (cands.filter (·.userId = u), emitted.filter (·.userId = u), t') ∧
      ∀ k ∈ reach records u, s' k = t' k := by
  induction xs generalizing s t cands emitted with
  | nil =>
      cases h
      exact ⟨t, rfl, hst⟩
  | cons x xs ih =>
      have hx : x ∈ records := hxs List.mem_cons_self
      simp only [visitAll, bind, pure, Option.bind_eq_some_iff] at h
      obtain ⟨⟨cands₁, emitted₁⟩, hvisit, ⟨cands₂, emitted₂, s''⟩, hrest, heq⟩ := h
      cases heq
      have hvisit := toOption_eq_some.mp hvisit
      obtain ⟨hcands, hemitted⟩ := visit_userId hvisit
      by_cases hu : x.2.tx.userId = u
      · -- a record of `u`: the same visit on both sides
        subst hu
        obtain ⟨hreply, hcells⟩ := (footprint_visit cfg hx).congr s t hst
        obtain ⟨t', ht', hend⟩ := ih (fun y hy => hxs (List.mem_cons_of_mem x hy)) hrest hcells
        refine ⟨t', ?_, hend⟩
        have hcands' : cands₁.filter (·.userId = x.2.tx.userId) = cands₁ :=
          List.filter_eq_self.mpr fun d hd => by simpa using hcands d hd
        have hemitted' : emitted₁.filter (·.userId = x.2.tx.userId) = emitted₁ :=
          List.filter_eq_self.mpr fun d hd => by simpa using hemitted d hd
        rw [List.filter_cons_of_pos (by simp), visitAll, ← hreply, hvisit, ht']
        simp only [toOption_ok, bind, Option.bind_some, pure, List.filter_append, hcands', hemitted']
      · -- a record of another user: invisible on the left, absent on the right
        have hother : ∀ k ∈ reach records u, (visit rt kafka cfg x s).2 k = t k := fun k hk =>
          (visit_other hu (fun y hy hyu => hkeys y hy x hx (by rw [hyu]; exact Ne.symm hu)) s hk).trans (hst k hk)
        obtain ⟨t', ht', hend⟩ := ih (fun y hy => hxs (List.mem_cons_of_mem x hy)) hrest hother
        refine ⟨t', ?_, hend⟩
        have hcands' : cands₁.filter (·.userId = u) = [] :=
          List.filter_eq_nil_iff.mpr fun d hd => by simpa [hcands d hd] using hu
        have hemitted' : emitted₁.filter (·.userId = u) = [] :=
          List.filter_eq_nil_iff.mpr fun d hd => by simpa [hemitted d hd] using hu
        rw [List.filter_cons_of_neg (by simpa using hu), ht', List.filter_append, List.filter_append, hcands',
          hemitted', List.nil_append, List.nil_append]

/-- Users do not influence each other: if transactions of different users have different replay keys, the
records of a user give the same candidates and emit the same detections, in any batching, with and without
the records of all other users, and leave the same burst, session and cooldown state of that user. -/
theorem users_independent (u : String) (batches batches' : List (ℕ × List (TxRecord rt kafka))) {db db₁ : Db}
    {cands emitted : List DetectionEvent} (hrun : handleBatches rt kafka cfg batches db = some (cands, emitted, db₁))
    (hkeys : ∀ x ∈ timed batches, ∀ y ∈ timed batches, x.2.tx.userId ≠ y.2.tx.userId →
      replayKey (x.2.tx.replayHash rt) ≠ replayKey (y.2.tx.replayHash rt))
    (hremoved : timed batches' = (timed batches).filter fun x => x.2.tx.userId = u) :
    ∃ db₂, handleBatches rt kafka cfg batches' db =
        some (cands.filter (·.userId = u), emitted.filter (·.userId = u), db₂) ∧
      ∀ k ∈ userState u, db₂ k = db₁ k := by
  rw [handleBatches_eq] at hrun ⊢
  rw [hremoved]
  obtain ⟨db₂, hrun', hend⟩ := visitAll_own (u := u) hkeys (List.Subset.refl _) hrun fun k _ => rfl
  exact ⟨db₂, hrun', fun k hk => (hend k (Or.inl (Or.inl hk))).symm⟩

end

/-! ## Two users -/

namespace Sample

/-- The document of `tx eventId` for another user. -/
def valueOf (eventId userId : String) : Json :=
  .obj [("event_id", .str eventId), ("user_id", .str userId), ("amount", .num (.num (25 / 2))),
    ("merchant", .str "shop"), ("timestamp", .str "2024-01-01T00:00:00+00:00"), ("location", .str "NYC"),
    ("latitude", .num (.num 0)), ("longitude", .num (.num 0))]

/-- The libraries on documents of two users. -/
def usersRuntime : Runtime :=
  { runtime with
    validateTx := fun
      | .obj fs => match fs.lookup "event_id", fs.lookup "user_id" with
          | some (.str eventId), some (.str userId) => some { tx eventId with userId := userId }
          | _, _ => none
      | _ => none
    sha256 := fun
      | "u2|12.50|shop|2024-01-01T00:00:00+00:00|NYC" =>
          "b45555f87392a6b3f81518785191f50375a2f074c7995635e61cb87682b71910"
      | payload => runtime.sha256 payload
    uuid5 := fun
      | "tx-events:0:2:replay_attack:" => "245b473b-4d14-5efd-866e-0f8ee8d88c06"
      | identity => runtime.uuid5 identity }

/-- The record at `offset` with `tx eventId` of a user. -/
def recordOf (offset : ℕ) (eventId userId : String) : TxRecord usersRuntime {} where
  record := ⟨"tx-events", 0, offset, valueOf eventId userId⟩
  tx := { tx eventId with userId := userId }
  topic_ne := show "tx-events" ≠ ({} : KafkaConfig).authEventsTopic by decide
  valid := rfl

/-- `u1` pays, `u2` pays the same in the same batch, and `u1` pays again. -/
def mixed : List (ℕ × List (TxRecord usersRuntime {})) :=
  [(0, [recordOf 0 "e1" "u1", recordOf 1 "e2" "u2"]), (1000, [recordOf 2 "e3" "u1"])]

/-- The same without `u2`, in one batch for each record. -/
def alone : List (ℕ × List (TxRecord usersRuntime {})) :=
  [(0, [recordOf 0 "e1" "u1"]), (1000, []), (1000, [recordOf 2 "e3" "u1"])]

theorem emitted_mixed :
    (handleBatches usersRuntime {} {} mixed fun _ => none).map (fun out => out.2.1.map (·.detectionId)) =
      some ["det-replay-245b473b-4d14-5efd-866e-0f8ee8d88c06"] := by
  decide +kernel

theorem replayKeys_mixed : ∀ x ∈ timed mixed, ∀ y ∈ timed mixed, x.2.tx.userId ≠ y.2.tx.userId →
    replayKey (x.2.tx.replayHash usersRuntime) ≠ replayKey (y.2.tx.replayHash usersRuntime) := by
  decide +kernel

end Sample

section

open Sample

/-- The second payment of `u1` is a replay with and without the payment of `u2` in between. -/
theorem users_independent_mixed :
    ∃ cands emitted db₁ db₂, handleBatches usersRuntime {} {} mixed (fun _ => none) = some (cands, emitted, db₁) ∧
      emitted.map (·.detectionId) = ["det-replay-245b473b-4d14-5efd-866e-0f8ee8d88c06"] ∧
      handleBatches usersRuntime {} {} alone (fun _ => none) =
        some (cands.filter (·.userId = "u1"), emitted.filter (·.userId = "u1"), db₂) ∧
      ∀ k ∈ userState "u1", db₂ k = db₁ k := by
  obtain ⟨⟨cands, emitted, db₁⟩, hrun, hids⟩ := Option.map_eq_some_iff.mp emitted_mixed
  obtain ⟨db₂, hrun', hstate⟩ := users_independent "u1" mixed alone hrun replayKeys_mixed rfl
  exact ⟨cands, emitted, db₁, db₂, hrun, hids, hrun', hstate⟩

end

end Rtace
