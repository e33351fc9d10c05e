import Rtace.Decision.LostResult

/-!
# Whose verdict is in the cache

`Decide` takes a delivery for a retry by its payload, through the replay key, but keeps its verdicts by
event id. A stored verdict belongs to every payload whose replay key holds the event id; as long as no
event id is decided for a second payload while the first one still holds it, that is one payload.
-/

namespace Rtace

open Lib Redis Engine

/-- What is to be known of a call: event id, replay hash, the decision it computed and went on to store,
whether it was stored, and the decision it returned. -/
structure Answer where
  eventId : String
  hash : String
  computed : Option Decision
  stored : Bool
  returned : Option Decision

section

variable (rt : Runtime) (cfg : Config)

/-- The decision that a call computes after the script, if it gets there. -/
def computedDecision (now : ℕ) (call : Call) (tx : Transaction) (db : Db) : Option Decision :=
  if tx.eventId = "" ∨ tx.userId = "" ∨ (refusal (tx.stamped call) (activeRules db (tx.stamped call))).isSome then none
  else
    let out := runTxCheck rt cfg now (tx.stamped call) db
    if out.1.replayStatus = .redelivery ∧ (cachedDecision (tx.stamped call) out.2).1.isSome then none
    else some (scored cfg call (tx.stamped call) out.1)

/-- The answer of a call that returns. -/
def answer (now : ℕ) (call : Call) (tx : Transaction) (db : Db) : Answer where
  eventId := tx.eventId
  hash := (tx.stamped call).replayHash rt
  computed := computedDecision rt cfg now call tx db
  stored := (computedDecision rt cfg now call tx db).isSome
  returned := (decide rt cfg now call tx db).1.toOption

/-- A sequence of calls. Between them keys expire, and other services change Redis: they drop results but
write none, and they write no replay key in the name of the decision service. -/
inductive CallStep (db : Db) : Option Answer → Db → Prop
  | decide (now : ℕ) (call : Call) (tx : Transaction) :
      CallStep db (some (answer rt cfg now call tx db)) (decide rt cfg now call tx db).2
  /-- The call fails to store its decision; the write may have happened. -/
  | lost (now : ℕ) (call : Call) (tx : Transaction) (written : Bool)
      (h : (computedDecision rt cfg now call tx db).isSome) :
      CallStep db (some { answer rt cfg now call tx db with stored := written, returned := none })
        (failedDecide rt cfg now call tx written db)
  | expire (now : ℕ) : CallStep db none (purge now db)
  | other (db' : Db) (hresult : ∀ e, db' (resultKey e) = db (resultKey e) ∨ db' (resultKey e) = none)
      (hreplay : ∀ hash e, storedRef db' (replayKey hash) = some (.text (decisionRef e)) →
        storedRef db (replayKey hash) = some (.text (decisionRef e))) :
      CallStep db none db'

end

/-- Every cached verdict among the answers was computed by an earlier call with the same event id and the
same replay hash. -/
def CacheHonest (answers : List (Option Answer)) : Prop :=
  ∀ before a after, answers = before ++ some a :: after → ∀ d ∈ a.returned, d.cached = true →
    ∃ b, some b ∈ before ∧ b.eventId = a.eventId ∧ b.hash = a.hash ∧
      ∃ d₀ ∈ b.computed, d = { d₀ with cached := true }

/-- A call that computes a decision has the event id to itself: if it stores the decision, no other payload
holds the event id; if it does not, a payload that is new to Redis finds no decision under its event id. -/
def OwnEventId (db : Db) (a : Answer) : Prop :=
  a.computed.isSome →
    if a.stored then
      ∀ hash ≠ a.hash, storedRef db (replayKey hash) ≠ some (.text (decisionRef a.eventId))
    else db (replayKey a.hash) = none → payload (db (resultKey a.eventId)) = none

/-- A step in which no event id changes hands. -/
def OwnedStep (rt : Runtime) (cfg : Config) (db : Db) (l : Option Answer) (db' : Db) : Prop :=
  CallStep rt cfg db l db' ∧ ∀ a ∈ l, OwnEventId db a

/-- A verdict under an event id whose payload holds it was computed for that event id and payload. -/
def Attributed (answers : List (Option Answer)) (db : Db) : Prop :=
  ∀ e hash p, storedRef db (replayKey hash) = some (.text (decisionRef e)) → payload (db (resultKey e)) = some p →
    ∃ b, some b ∈ answers ∧ b.eventId = e ∧ b.hash = hash ∧ ∃ d ∈ b.computed, p = .json d.toJson

/-! ## What a call does -/

section

variable {rt : Runtime} {cfg : Config} {now : ℕ} {call : Call} {tx : Transaction} {db : Db}

/-- The read of a stored verdict finds what the result key holds. -/
theorem cachedDecision_eq_some {d : Decision} (h : (cachedDecision tx db).1 = some d) :
    ∃ j d₀, payload (db (resultKey tx.eventId)) = some (.json j) ∧ unmarshal j = some d₀ ∧
      d = { d₀ with cached := true } := by
  cases hp : payload (db (resultKey tx.eventId)) with
  | none =>
      rw [cachedDecision_none hp] at h
      cases h
  | some p =>
      cases p with
      | text s => simp [cachedDecision, hp] at h
      | json j =>
          rw [cachedDecision_json hp] at h
          obtain ⟨d₀, hd₀, rfl⟩ := Option.map_eq_some_iff.mp h
          exact ⟨j, d₀, rfl, hd₀, rfl⟩

/-- A redelivery meets its own reference. -/
theorem replayStatusOf_redelivery {stored : Option Payload} {a : TxArgs}
    (h : replayStatusOf stored a = .redelivery) : stored = some (.text a.recordRef) := by
  rcases stored with _ | s | j
  · cases h
  · simp only [replayStatusOf, replayVerdict] at h
    split_ifs at h with hown
    rw [hown]
  · cases h

/-- The script leaves the reference of its payload, or its own if there is none. -/
theorem storedRef_runTxCheck (rt : Runtime) (cfg : Config) (now : ℕ) (tx : Transaction) (db : Db) (hash : String) :
    storedRef (runTxCheck rt cfg now tx db).2 (replayKey hash) =
      if hash = tx.replayHash rt then
        some ((storedRef db (replayKey hash)).getD (.text (decisionRef tx.eventId)))
      else storedRef db (replayKey hash) := by
  split
  · rename_i heq
    rw [heq]
    exact storedRef_txCheck rt now (Engine.txArgs cfg tx) db (Engine.txKeys_distinct rt tx)
  · rename_i hne
    have hkey : replayKey hash ∉ ({(Engine.txKeys rt tx).replay, (Engine.txKeys rt tx).burst,
        (Engine.txKeys rt tx).session} : Set String) := by
      rintro (h | h | h)
      · exact hne (replayKey_injective h)
      · exact append_ne_of_incomparable (p := replayKeyPrefix) (q := burstKeyPrefix) (by decide) _ _ h
      · exact append_ne_of_incomparable (p := replayKeyPrefix) (q := sessionKeyPrefix) (by decide) _ _ h
    rw [storedRef, storedRef, runTxCheck, (footprint_txCheck _ _ _ _).frame _ _ hkey]

/-- A call that is not turned away has both ids and meets no rule. -/
theorem not_turned_away (h : ¬ (tx.eventId = "" ∨ tx.userId = "" ∨
    (refusal (tx.stamped call) (activeRules db (tx.stamped call))).isSome)) :
    ¬ (tx.eventId = "" ∨ tx.userId = "") ∧ refusal (tx.stamped call) (activeRules db (tx.stamped call)) = none := by
  rw [← or_assoc, not_or, Bool.not_eq_true, Option.isSome_eq_false_iff, Option.isNone_iff_eq_none] at h
  exact h

/-- A call that computes a decision stores it and returns it. -/
theorem decide_of_computed {d : Decision} (h : computedDecision rt cfg now call tx db = some d) :
    d = scored cfg call (tx.stamped call) (runTxCheck rt cfg now (tx.stamped call) db).1 ∧
      decide rt cfg now call tx db =
        (.ok d, (storeDecision cfg now (tx.stamped call) d (runTxCheck rt cfg now (tx.stamped call) db).2).2) := by
  unfold computedDecision at h
  split at h
  · cases h
  · rename_i hfree
    obtain ⟨hids, hrule⟩ := not_turned_away hfree
    dsimp only at h
    split at h
    · cases h
    · rename_i hcached
      cases h
      refine ⟨rfl, ?_⟩
      by_cases hagain : (runTxCheck rt cfg now (tx.stamped call) db).1.replayStatus = .redelivery
      · have hnone : (cachedDecision (tx.stamped call) (runTxCheck rt cfg now (tx.stamped call) db).2).1 = none := by
          simpa [hagain] using hcached
        rw [decide_redelivered hids hrule hagain]
        simp only [hnone]
      · rw [decide_scored hids hrule hagain]

variable (rt cfg now) in
/-- A refused call writes nothing, and its answer is a fresh one. -/
theorem decide_turned_away (h : tx.eventId = "" ∨ tx.userId = "" ∨
    (refusal (tx.stamped call) (activeRules db (tx.stamped call))).isSome) :
    (decide rt cfg now call tx db).2 = db ∧
      ∀ d ∈ (decide rt cfg now call tx db).1.toOption, d.cached = false := by
  rw [← or_assoc] at h
  by_cases hids : tx.eventId = "" ∨ tx.userId = ""
  · rw [decide_missingIds hids]
    exact ⟨rfl, by simp⟩
  · obtain ⟨⟨reason, v⟩, hrule⟩ := Option.isSome_iff_exists.mp (h.resolve_left hids)
    rw [decide_refused hids hrule]
    exact ⟨rfl, by simp [newDecision]⟩

/-- Any other call changes no reference and no stored decision, and if its answer is cached, it is the one
stored under its event id for its payload. -/
theorem decide_not_computed (h : computedDecision rt cfg now call tx db = none) :
    (∀ hash, storedRef (decide rt cfg now call tx db).2 (replayKey hash) = storedRef db (replayKey hash)) ∧
      (∀ e, (decide rt cfg now call tx db).2 (resultKey e) = db (resultKey e)) ∧
      ∀ d ∈ (decide rt cfg now call tx db).1.toOption, d.cached = true →
        storedRef db (replayKey ((tx.stamped call).replayHash rt)) = some (.text (decisionRef tx.eventId)) ∧
          ∃ j d₀, payload (db (resultKey tx.eventId)) = some (.json j) ∧ unmarshal j = some d₀ ∧
            d = { d₀ with cached := true } := by
  unfold computedDecision at h
  split at h
  · rename_i hrefused
    obtain ⟨hsame, hfresh⟩ := decide_turned_away rt cfg now hrefused
    rw [hsame]
    exact ⟨fun _ => rfl, fun _ => rfl, fun d hd hcached => absurd hcached (by simp [hfresh d hd])⟩
  · rename_i hfree
    obtain ⟨hids, hrule⟩ := not_turned_away hfree
    dsimp only at h
    split at h
    · rename_i hcached
      obtain ⟨hagain, hsome⟩ := hcached
      obtain ⟨prev, hprev⟩ := Option.isSome_iff_exists.mp hsome
      have hstatus : replayStatusOf (storedRef db (replayKey ((tx.stamped call).replayHash rt)))
          (Engine.txArgs cfg (tx.stamped call)) = .redelivery := by
        rw [← hagain]
        exact (txCheck_replayStatus (Engine.txKeys_distinct rt _)).symm
      have hheld := replayStatusOf_redelivery hstatus
      have hdecide : decide rt cfg now call tx db = (.ok prev, (runTxCheck rt cfg now (tx.stamped call) db).2) := by
        rw [decide_redelivered hids hrule hagain]
        simp only [hprev]
      rw [hdecide]
      refine ⟨fun hash => ?_, fun e => runTxCheck_result rt cfg now _ db e, fun d hd _ => ⟨?_, ?_⟩⟩
      · rw [storedRef_runTxCheck]
        split
        · rename_i heq
          rw [heq, hheld]
          rfl
        · rfl
      · rw [hheld]
        simp [Engine.txArgs]
      · obtain ⟨j, d₀, hj, hd₀, rfl⟩ := cachedDecision_eq_some hprev
        rw [runTxCheck_result, stamped_eventId] at hj
        cases hd
        exact ⟨j, d₀, hj, hd₀, rfl⟩
    · cases h

/-- The verdicts stay attributed when results are dropped and no reference is added. -/
theorem Attributed.drop {answers : List (Option Answer)} {db' : Db} (hinv : Attributed answers db)
    (hresult : ∀ e, db' (resultKey e) = db (resultKey e) ∨ db' (resultKey e) = none)
    (hreplay : ∀ hash e, storedRef db' (replayKey hash) = some (.text (decisionRef e)) →
      storedRef db (replayKey hash) = some (.text (decisionRef e))) : Attributed answers db' := by
  intro e hash p href hp
  rcases hresult e with hkept | hgone
  · exact hinv e hash p (hreplay hash e href) (hkept ▸ hp)
  · rw [hgone] at hp
    cases hp

/-- The verdicts stay attributed when a call stores its reference and, alone with its event id, its decision;
or leaves the stored decision, which a payload that is new to Redis does not find. -/
theorem Attributed.extend {answers : List (Option Answer)} {db' : Db} {a : Answer} {d : Decision}
    (hinv : Attributed answers db) (hd : a.computed = some d)
    (hrefs : ∀ hash, storedRef db' (replayKey hash) =
      if hash = a.hash then some ((storedRef db (replayKey hash)).getD (.text (decisionRef a.eventId)))
      else storedRef db (replayKey hash))
    (hother : ∀ e ≠ a.eventId, db' (resultKey e) = db (resultKey e))
    (hown : (db' (resultKey a.eventId) = db (resultKey a.eventId) ∧
        (storedRef db (replayKey a.hash) = none → payload (db (resultKey a.eventId)) = none)) ∨
      (payload (db' (resultKey a.eventId)) = some (.json d.toJson) ∧
        ∀ hash ≠ a.hash, storedRef db (replayKey hash) ≠ some (.text (decisionRef a.eventId)))) :
    Attributed (answers ++ [some a]) db' := by
  intro e hash p href hp
  have hold : storedRef db (replayKey hash) = some (.text (decisionRef e)) → payload (db (resultKey e)) = some p →
      ∃ b, some b ∈ answers ++ [some a] ∧ b.eventId = e ∧ b.hash = hash ∧ ∃ d ∈ b.computed, p = .json d.toJson := by
    intro href hp
    obtain ⟨b, hb, hrest⟩ := hinv e hash p href hp
    exact ⟨b, List.mem_append_left _ hb, hrest⟩
  rw [hrefs] at href
  by_cases he : e = a.eventId
  · subst he
    rcases hown with ⟨hsame, hnew⟩ | ⟨hstored, hfree⟩
    · rw [hsame] at hp
      split at href
      · rename_i hhash
        subst hhash
        cases hs : storedRef db (replayKey a.hash) with
        | none => simp [hnew hs] at hp
        | some q =>
            rw [hs] at href
            exact hold (hs.trans href) hp
      · exact hold href hp
    · split at href
      · rename_i hhash
        rw [hstored] at hp
        exact ⟨a, by simp, rfl, hhash.symm, d, hd, (Option.some.inj hp).symm⟩
      · rename_i hhash
        exact absurd href (hfree hash hhash)
  · rw [hother e he] at hp
    split at href
    · rename_i hhash
      cases hs : storedRef db (replayKey hash) with
      | none =>
          rw [hs] at href
          exact absurd (decisionRef_injective (Payload.text.inj (Option.some.inj href))).symm he
      | some q =>
          rw [hs] at href
          exact hold (hs.trans href) hp
    · exact hold href hp

/-- The keyspace after a call that computed `d`: the script ran, and the decision is stored or not. -/
theorem attributed_computed {answers : List (Option Answer)} {d : Decision} {a : Answer}
    (hinv : Attributed answers db) (hd : computedDecision rt cfg now call tx db = some d)
    (hevent : a.eventId = tx.eventId) (hhash : a.hash = (tx.stamped call).replayHash rt)
    (hcomputed : a.computed = some d) (hown : OwnEventId db a) :
    Attributed (answers ++ [some a]) (failedDecide rt cfg now call tx a.stored db) := by
  obtain ⟨rfl, -⟩ := decide_of_computed hd
  have hown := hown (by simp [hcomputed])
  have hscript : ∀ hash, storedRef (runTxCheck rt cfg now (tx.stamped call) db).2 (replayKey hash) =
      if hash = a.hash then some ((storedRef db (replayKey hash)).getD (.text (decisionRef a.eventId)))
      else storedRef db (replayKey hash) := fun hash => by
    rw [storedRef_runTxCheck, hevent, hhash, stamped_eventId]
  have hnone : ∀ {k}, storedRef db k = none → db k = none := fun h => Option.map_eq_none_iff.mp h
  unfold failedDecide
  split
  · rename_i hstored
    rw [if_pos hstored] at hown
    cases hm : marshal (scored cfg call (tx.stamped call) (runTxCheck rt cfg now (tx.stamped call) db).1) with
    | none =>
        -- only a replay quotes a stored reference, and then its payload is not new
        have hreplay : (runTxCheck rt cfg now (tx.stamped call) db).1.replayStatus = .replay := by
          by_contra hne
          rw [marshal_scored call hne] at hm
          cases hm
        have hheld : storedRef db (replayKey a.hash) ≠ none := by
          intro hnew
          rw [runTxCheck, txCheck_replayStatus (Engine.txKeys_distinct rt _), Engine.txKeys, ← hhash, hnew] at hreplay
          cases hreplay
        have hstore : ∀ db' : Db, (storeDecision cfg now (tx.stamped call)
            (scored cfg call (tx.stamped call) (runTxCheck rt cfg now (tx.stamped call) db).1) db').2 = db' := by
          intro db'
          rw [storeDecision, hm]
          rfl
        rw [hstore]
        exact hinv.extend hcomputed hscript (fun e _ => runTxCheck_result rt cfg now _ db e)
          (Or.inl ⟨runTxCheck_result rt cfg now _ db _, fun h => absurd h hheld⟩)
    | some doc =>
        have hfoot := footprint_storeDecision cfg now (tx.stamped call)
          (scored cfg call (tx.stamped call) (runTxCheck rt cfg now (tx.stamped call) db).1)
        refine hinv.extend hcomputed (fun hash => ?_) (fun e he => ?_) (Or.inr ⟨?_, hown⟩)
        · rw [← hscript, storedRef, storedRef, hfoot.frame]
          exact append_ne_of_incomparable (p := replayKeyPrefix) (q := resultKeyPrefix) (by decide) _ _
        · rw [hfoot.frame, runTxCheck_result]
          rw [hevent] at he
          simpa using fun h => he (resultKey_injective h)
        · rw [hevent, ← stamped_eventId tx call, storeDecision_marshal hm, eq_toJson_of_marshal hm]
  · rename_i hstored
    rw [if_neg hstored] at hown
    refine hinv.extend hcomputed hscript (fun e _ => runTxCheck_result rt cfg now _ db e)
      (Or.inl ⟨runTxCheck_result rt cfg now _ db _, fun h => hown (hnone h)⟩)

/-- One step keeps the verdicts attributed, and its own cached answer is honest. -/
theorem ownedStep_attributed {answers : List (Option Answer)} {db' : Db} {l : Option Answer}
    (hinv : Attributed answers db) (h : OwnedStep rt cfg db l db') :
    Attributed (answers ++ [l]) db' ∧
      ∀ a ∈ l, ∀ d ∈ a.returned, d.cached = true →
        ∃ b, some b ∈ answers ∧ b.eventId = a.eventId ∧ b.hash = a.hash ∧
          ∃ d₀ ∈ b.computed, d = { d₀ with cached := true } := by
  obtain ⟨hstep, hown⟩ := h
  have hmono : ∀ {db' : Db}, Attributed answers db' → Attributed (answers ++ [l]) db' := by
    intro db' h e hash p href hp
    obtain ⟨b, hb, hrest⟩ := h e hash p href hp
    exact ⟨b, List.mem_append_left _ hb, hrest⟩
  cases hstep with
  | expire now =>
      refine ⟨hmono (hinv.drop (fun e => purge_cases now db _) fun hash e href => ?_), by simp⟩
      rcases purge_cases now db (replayKey hash) with hkept | hgone
      · rwa [storedRef, hkept] at href
      · simp [storedRef, hgone] at href
  | other db' hresult hreplay => exact ⟨hmono (hinv.drop hresult hreplay), by simp⟩
  | lost now call tx written hcomputed =>
      obtain ⟨d, hd⟩ := Option.isSome_iff_exists.mp hcomputed
      have hattributed := attributed_computed hinv hd (a := { answer rt cfg now call tx db with
        stored := written, returned := none }) rfl rfl hd (hown _ rfl)
      exact ⟨hattributed, by simp⟩
  | decide now call tx =>
      cases hd : computedDecision rt cfg now call tx db with
      | some d =>
          obtain ⟨hscored, hdecide⟩ := decide_of_computed hd
          have hattributed := attributed_computed hinv hd (a := answer rt cfg now call tx db) rfl rfl hd (hown _ rfl)
          have hstored : (answer rt cfg now call tx db).stored = true := by simp [answer, hd]
          rw [hstored, failedDecide, if_pos rfl, ← hscored] at hattributed
          rw [hdecide]
          refine ⟨hattributed, ?_⟩
          -- the decision a call computes is a fresh one
          simp [answer, hdecide, hscored, scored, newDecision]
      | none =>
          obtain ⟨hrefs, hresults, hcached⟩ := decide_not_computed hd
          refine ⟨hmono (hinv.drop (fun e => Or.inl (hresults e)) fun hash e => ?_), ?_⟩
          · rw [hrefs]
            exact id
          · intro a ha d hd' hcached'
            cases ha
            obtain ⟨href, j, d₀, hj, hd₀, rfl⟩ := hcached d hd' hcached'
            obtain ⟨b, hb, hevent, hhash, d₁, hd₁, hp⟩ := hinv _ _ _ href hj
            cases hp
            rw [unmarshal_toJson] at hd₀
            cases hd₀
            exact ⟨b, hb, hevent, hhash, d₀, hd₁, rfl⟩

theorem CacheHonest.concat {answers : List (Option Answer)} {l : Option Answer} (h : CacheHonest answers)
    (hl : ∀ a ∈ l, ∀ d ∈ a.returned, d.cached = true →
      ∃ b, some b ∈ answers ∧ b.eventId = a.eventId ∧ b.hash = a.hash ∧
        ∃ d₀ ∈ b.computed, d = { d₀ with cached := true }) : CacheHonest (answers ++ [l]) := by
  intro before a after heq d hd hcached
  rcases List.eq_nil_or_concat after with rfl | ⟨after, l', rfl⟩
  · obtain ⟨rfl, hla⟩ := List.append_inj' heq rfl
    exact hl a (List.singleton_inj.mp hla) d hd hcached
  · rw [List.concat_eq_append, ← List.cons_append, ← List.append_assoc] at heq
    obtain ⟨rfl, -⟩ := List.append_inj' heq rfl
    exact h before a after rfl d hd hcached

end

/-- In a sequence of calls in which no event id changes hands, every cached verdict was computed by an
earlier call for the same event id and the same payload. -/
theorem cacheHonest_of_owned {rt : Runtime} {cfg : Config} {db db' : Db} {answers : List (Option Answer)}
    (hstart : ∀ e, db (resultKey e) = none) (h : Run (OwnedStep rt cfg) db answers db') : CacheHonest answers := by
  suffices hinv : Attributed answers db' ∧ CacheHonest answers from hinv.2
  refine h.history (I := fun answers db => Attributed answers db ∧ CacheHonest answers) ⟨?_, ?_⟩ ?_
  · intro e hash p _ hp
    rw [hstart] at hp
    cases hp
  · intro before a after heq
    simp at heq
  · rintro answers a l b ⟨hattributed, hhonest⟩ hstep
    obtain ⟨hattributed', hlast⟩ := ownedStep_attributed hattributed hstep
    exact ⟨hattributed', hhonest.concat hlast⟩

/-! ## An event id used twice -/

namespace Sample

/-- A second transaction of `u1` under the event id of the first. -/
def dearer (eventId : String) : Transaction := { transaction eventId with amount := .num 99 }

/-- The libraries, with the digests of both payloads. -/
def reusedRuntime : Runtime :=
  { runtime with
    sha256 := fun
      | "u1|99.00|shop|2024-01-01T00:00:00+00:00|NYC" =>
          "f25a8b93aa06b8507b5156724f7a044f54c666b9d7e6481c29a81d1af56f604e"
      | payload => runtime.sha256 payload }

/-- A later call. -/
def secondCall : Call where
  uuid := "7c9e6679-7425-40de-944b-e07fc1f90ae7"
  clock := ⟨2024, 1, 1, 0, 0, 2, 0, 0, by decide⟩
  decidedAt := "2024-01-01T00:00:02Z"

/-- The keyspaces after the first and the second call. -/
def afterFirst : Db := (decide reusedRuntime {} 0 call (transaction "e1") fun _ => none).2

def afterSecond : Db := (decide reusedRuntime {} 1000 secondCall (dearer "e1") afterFirst).2

/-- The first transaction, another one under its event id, and a retry of the first. -/
def reused : List (Option Answer) :=
  [some (answer reusedRuntime {} 0 call (transaction "e1") fun _ => none),
    some (answer reusedRuntime {} 1000 secondCall (dearer "e1") afterFirst),
    some (answer reusedRuntime {} 2000 call (transaction "e1") afterSecond)]

theorem hash_ne : ((dearer "e1").stamped secondCall).replayHash reusedRuntime ≠
    ((transaction "e1").stamped call).replayHash reusedRuntime := by
  decide +kernel

/-- The first call computes the decision with its own id. -/
theorem first_computed :
    (computedDecision reusedRuntime {} 0 call (transaction "e1") fun _ => none).map (·.decisionId) =
    some "dec-0f8fad5b-d9cb-469f-a165-70867728950e" := by
  decide +kernel

/-- The retry is answered with the decision of the second call. -/
theorem third_returned :
    (decide reusedRuntime {} 2000 call (transaction "e1") afterSecond).1.toOption.map (fun d => (d.decisionId, d.cached)) =
      some ("dec-7c9e6679-7425-40de-944b-e07fc1f90ae7", true) := by
  decide +kernel

/-- Calling twice with the same transaction. -/
theorem retry_returned :
    (decide reusedRuntime {} 1000 call (transaction "e1") afterFirst).1.toOption.map (fun d => (d.decisionId, d.cached)) =
      some ("dec-0f8fad5b-d9cb-469f-a165-70867728950e", true) := by
  decide +kernel

theorem retry_not_computed :
    (computedDecision reusedRuntime {} 1000 call (transaction "e1") afterFirst).isSome = false := by
  decide +kernel

end Sample

section

open Sample

/-- The retry of a transaction is answered with the verdict on another one. -/
theorem not_cacheHonest_reused :
    (∃ db, Run (CallStep reusedRuntime {}) (fun _ => none) reused db) ∧ ¬ CacheHonest reused := by
  refine ⟨⟨_, Run.cons (.decide 0 call (transaction "e1")) (Run.cons (.decide 1000 secondCall (dearer "e1"))
    (Run.single (.decide 2000 call (transaction "e1"))))⟩, fun h => ?_⟩
  obtain ⟨d, hd, hid⟩ := Option.map_eq_some_iff.mp third_returned
  obtain ⟨hid, hcached⟩ := Prod.mk.injEq _ _ _ _ ▸ hid
  obtain ⟨b, hb, -, hhash, d₀, hd₀, rfl⟩ := h (reused.take 2) _ [] rfl d hd hcached
  simp only [reused, List.take_succ_cons, List.take_zero, List.mem_cons, Option.some.injEq, List.not_mem_nil,
    or_false] at hb
  rcases hb with rfl | rfl
  · have hfirst := first_computed
    rw [show computedDecision reusedRuntime {} 0 call (transaction "e1") (fun _ => none) = some d₀ from hd₀] at hfirst
    rw [Option.map_some, Option.some.injEq] at hfirst
    rw [hfirst] at hid
    revert hid
    decide
  · exact hash_ne hhash

/-- A retry that is answered with its own verdict. -/
theorem cacheHonest_of_owned_retry :
    (decide reusedRuntime {} 1000 call (transaction "e1") afterFirst).1.toOption.map (fun d => (d.decisionId, d.cached)) =
        some ("dec-0f8fad5b-d9cb-469f-a165-70867728950e", true) ∧
    ∃ db, Run (OwnedStep reusedRuntime {}) (fun _ => none)
        [some (answer reusedRuntime {} 0 call (transaction "e1") fun _ => none),
          some (answer reusedRuntime {} 1000 call (transaction "e1") afterFirst)] db ∧
      CacheHonest [some (answer reusedRuntime {} 0 call (transaction "e1") fun _ => none),
        some (answer reusedRuntime {} 1000 call (transaction "e1") afterFirst)] := by
  have hrun : Run (OwnedStep reusedRuntime {}) (fun _ => none)
      [some (answer reusedRuntime {} 0 call (transaction "e1") fun _ => none),
        some (answer reusedRuntime {} 1000 call (transaction "e1") afterFirst)]
      (decide reusedRuntime {} 1000 call (transaction "e1") afterFirst).2 := by
    refine Run.cons ⟨.decide 0 call (transaction "e1"), ?_⟩ (Run.single ⟨.decide 1000 call (transaction "e1"), ?_⟩)
    · intro a _ _
      split
      · simp [storedRef]
      · exact fun _ => rfl
    · intro a ha hsome
      cases ha
      exact absurd hsome (by simp [answer, retry_not_computed])
  exact ⟨retry_returned, _, hrun, cacheHonest_of_owned (fun _ => rfl) hrun⟩

end

end Rtace
