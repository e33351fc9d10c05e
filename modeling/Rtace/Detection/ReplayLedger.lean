import Mathlib.Data.List.ReduceOption
import Rtace.Detection.NoTrace
import Rtace.Detection.Produced

/-!
# The replay ledger

The replay keys are a ledger: the first delivery of a payload enters its reference, and every delivery of
the payload is compared with the entry until it expires, `replay_ttl` after it was made. As long as all
deliveries come from Kafka, the entries of the keyspace are those of the deliveries that created them
(`Ledger`), whatever else happens in between, and the status of every delivery is the one the ledger gives.
-/

namespace Rtace

open Lib Redis

/-- The names Kafka accepts for a topic. -/
def LegalTopic (topic : String) : Prop :=
  ∀ c ∈ topic.toList, c.isAlphanum ∨ c = '.' ∨ c = '_' ∨ c = '-'

/-- An analysed delivery: when it was checked, and what the script replied. -/
structure Checked where
  tx : TransactionEvent
  ref : String
  time : ℕ
  reply : TxReply

/-- The delivery created the key of its payload. -/
def Checked.Created (c : Checked) : Prop := c.reply.replayStatus = .first

/-- `replay_ttl_hours` in milliseconds. -/
def replayTtl (cfg : RedisConfig) : ℕ := 1000 * (cfg.replayTtlHours * 3600)

/-- Two deliveries carry the same payload, as far as its digest tells. -/
def Checked.SamePayload (rt : Runtime) (e c : Checked) : Prop := e.tx.replayHash rt = c.tx.replayHash rt

/-- The keyspace and the clock. -/
structure Timeline where
  now : ℕ
  db : Db

/-- The script call for a delivery. -/
def Timeline.check (rt : Runtime) (cfg : RedisConfig) (s : Timeline) (tx : TransactionEvent) (ref : String)
    (ts : ℚ) : Checked × Timeline :=
  let out := txCheck rt s.now (txKeys rt tx) (txArgs cfg tx ref ts) s.db
  (⟨tx, ref, s.now, out.1⟩, ⟨s.now, out.2⟩)

/-- Kafka traffic over one keyspace. -/
inductive FeedStep (rt : Runtime) (cfg : RedisConfig) (s : Timeline) : Option Checked → Timeline → Prop
  /-- An analysed transaction. Redis refuses a lifetime of zero, so the script does not run with one. -/
  | check (tx : TransactionEvent) (topic : String) (partition offset : ℕ) (ts : ℚ)
      (hts : tx.timestamp.timestamp rt = .ok ts) (hlegal : LegalTopic topic) (htopic : topic ≠ "decision")
      (httl : 0 < cfg.replayTtlHours) :
      FeedStep rt cfg s (some (s.check rt cfg tx (recordRef topic partition offset) ts).1)
        (s.check rt cfg tx (recordRef topic partition offset) ts).2
  /-- Whatever else uses the store; only `tx_check` writes replay keys. -/
  | other (db : Db) (hdb : ∀ hash, db (replayKey hash) = s.db (replayKey hash)) :
      FeedStep rt cfg s none ⟨s.now, db⟩
  | tick (now : ℕ) (h : s.now ≤ now) : FeedStep rt cfg s none ⟨now, purge now s.db⟩

/-- The status of `c` is the one that the deliveries `before` it call for. -/
structure ExactStatus (rt : Runtime) (cfg : RedisConfig) (before : List Checked) (c : Checked) : Prop where
  /-- It is a first one iff nobody created the key within the last `replay_ttl`. -/
  first : c.reply.replayStatus = .first ↔
    ∀ e ∈ before, e.Created → e.SamePayload rt c → e.time + replayTtl cfg ≤ c.time
  /-- Otherwise it is told apart by the reference of the delivery that did. -/
  repeated : ∀ e ∈ before, e.Created → e.SamePayload rt c → c.time < e.time + replayTtl cfg →
    (c.reply.replayStatus = .redelivery ↔ c.ref = e.ref) ∧ (c.reply.replayStatus = .replay ↔ c.ref ≠ e.ref) ∧
      c.reply.storedRef = .text e.ref ∧
      ∀ d, replayInterpret c.tx c.reply.replayStatus c.reply.storedRef = some d →
        d.details = [("first_seen_record", .str e.ref)]

/-- The replay keys are those that the deliveries so far have created, unchanged and with their original
deadline. -/
structure Ledger (rt : Runtime) (cfg : RedisConfig) (before : List Checked) (s : Timeline) : Prop where
  fromKafka : ∀ e ∈ before, ∀ i, e.ref ≠ decisionRef i
  held : ∀ e ∈ before, e.Created → s.now < e.time + replayTtl cfg →
    s.db (replayKey (e.tx.replayHash rt)) = some ⟨.str (.text e.ref), some (e.time + replayTtl cfg)⟩
  created : ∀ hash, s.db (replayKey hash) ≠ none →
    ∃ e ∈ before, e.Created ∧ e.tx.replayHash rt = hash ∧ s.now < e.time + replayTtl cfg

/-! ## References -/

theorem LegalTopic.colon_notMem {topic : String} (h : LegalTopic topic) : ':' ∉ topic.toList := by
  intro hmem
  have := h ':' hmem
  revert this
  decide

/-- A Kafka delivery is never taken for a call of the decision service. -/
theorem recordRef_ne_decisionRef {topic : String} (hlegal : LegalTopic topic) (htopic : topic ≠ "decision")
    (partition offset : ℕ) (i : String) : recordRef topic partition offset ≠ decisionRef i := by
  intro heq
  have htake : ∀ {name rest : List Char}, ':' ∉ name → (name ++ ':' :: rest).takeWhile (· ≠ ':') = name := by
    intro name rest hname
    rw [List.takeWhile_append_of_pos (by simpa using fun c hc => ne_of_mem_of_not_mem hc hname)]
    simp
  have hlist : (recordRef topic partition offset).toList
      = topic.toList ++ ':' :: (Nat.toDigits 10 partition ++ ':' :: Nat.toDigits 10 offset) := by
    simp [recordRef, toString]
  have hdecision : (decisionRef i).toList = "decision".toList ++ ':' :: i.toList := by
    simp [decisionRef]
  have hname := congrArg (List.takeWhile (· ≠ ':')) (congrArg String.toList heq)
  rw [hlist, hdecision, htake hlegal.colon_notMem, htake (by decide)] at hname
  exact htopic (String.ext_iff.mpr hname)

/-- A replay names the record that was seen first. -/
theorem replayInterpret_details {tx : TransactionEvent} {status : ReplayStatus} {stored : Payload}
    {d : DetectionEvent} (h : replayInterpret tx status stored = some d) :
    d.details = [("first_seen_record", stored.toJson)] := by
  unfold replayInterpret at h
  split at h
  · cases h
    rfl
  · cases h

/-! ## One step -/

section Step

variable {rt : Runtime} {cfg : RedisConfig} {before : List Checked} {s t : Timeline}
  {tx : TransactionEvent} {ref : String} {ts : ℚ}

/-- The reply on a free key, and the entry it leaves. -/
theorem check_free (tx : TransactionEvent) (cfg : RedisConfig) (ref : String) (ts : ℚ)
    (hfree : s.db (replayKey (tx.replayHash rt)) = none) :
    (s.check rt cfg tx ref ts).1.Created ∧ (s.check rt cfg tx ref ts).2.db (replayKey (tx.replayHash rt)) =
      some ⟨.str (.text ref), some (s.now + replayTtl cfg)⟩ := by
  have hkey : s.db (txKeys rt tx).replay = none := hfree
  constructor
  · simp only [Checked.Created, Timeline.check, txCheck_replayStatus (txKeys_distinct rt tx), storedRef, hkey]
    rfl
  · have hentry := txCheck_replay rt s.now (txArgs cfg tx ref ts) s.db (txKeys_distinct rt tx)
    rw [hkey] at hentry
    exact hentry

/-- The reply on a key that holds the reference of another Kafka delivery, and the entry, which stays. -/
theorem check_held (tx : TransactionEvent) (cfg : RedisConfig) (ref : String) (ts : ℚ) {r₀ : String} {x : Option ℕ}
    (hheld : s.db (replayKey (tx.replayHash rt)) = some ⟨.str (.text r₀), x⟩) (hkafka : ∀ i, r₀ ≠ decisionRef i) :
    (s.check rt cfg tx ref ts).1.reply.replayStatus = (if ref = r₀ then .redelivery else .replay) ∧
      (s.check rt cfg tx ref ts).1.reply.storedRef = .text r₀ ∧
      (s.check rt cfg tx ref ts).2.db (replayKey (tx.replayHash rt)) = some ⟨.str (.text r₀), x⟩ := by
  have hkey : s.db (txKeys rt tx).replay = some ⟨.str (.text r₀), x⟩ := hheld
  refine ⟨?_, ?_, ?_⟩
  · simp only [Timeline.check, txCheck_replayStatus (txKeys_distinct rt tx), storedRef, hkey, Option.map_some,
      payload_str, Option.getD_some, replayStatusOf, replayVerdict, hkafka, if_false]
    simp only [txArgs, eq_comm]
  · simp only [Timeline.check, txCheck_storedRef (txKeys_distinct rt tx), storedRef, hkey, Option.map_some,
      payload_str, Option.getD_some]
  · have hentry := txCheck_replay rt s.now (txArgs cfg tx ref ts) s.db (txKeys_distinct rt tx)
    rw [hkey] at hentry
    exact hentry

/-- A check leaves the keys of other payloads alone. -/
theorem check_frame {hash : String} (h : hash ≠ tx.replayHash rt) :
    (s.check rt cfg tx ref ts).2.db (replayKey hash) = s.db (replayKey hash) :=
  txCheck_replay_frame (fun heq => h (replayKey_injective heq)) _ _ _

/-- What is free or held is so by the ledger. -/
theorem Ledger.cases (h : Ledger rt cfg before s) (hash : String) :
    s.db (replayKey hash) = none ∧
        (∀ e ∈ before, e.Created → e.tx.replayHash rt = hash → e.time + replayTtl cfg ≤ s.now) ∨
      ∃ e ∈ before, e.Created ∧ e.tx.replayHash rt = hash ∧ s.now < e.time + replayTtl cfg ∧
        s.db (replayKey hash) = some ⟨.str (.text e.ref), some (e.time + replayTtl cfg)⟩ := by
  by_cases hfree : s.db (replayKey hash) = none
  · refine Or.inl ⟨hfree, fun e he hcreated hhash => not_lt.mp fun hlive => ?_⟩
    have hheld := h.held e he hcreated hlive
    rw [hhash, hfree] at hheld
    cases hheld
  · obtain ⟨e, he, hcreated, rfl, hlive⟩ := h.created hash hfree
    exact Or.inr ⟨e, he, hcreated, rfl, hlive, h.held e he hcreated hlive⟩

/-- The status that a check gives is exact. -/
theorem Ledger.exact (h : Ledger rt cfg before s) :
    ExactStatus rt cfg before (s.check rt cfg tx ref ts).1 := by
  rcases h.cases (tx.replayHash rt) with ⟨hfree, hlapsed⟩ | ⟨e, he, hcreated, hsame, hlive, hheld⟩
  · have hfirst : (s.check rt cfg tx ref ts).1.Created := (check_free tx cfg ref ts hfree).1
    refine ⟨⟨fun _ e he hcreated hsame => hlapsed e he hcreated hsame, fun _ => hfirst⟩, ?_⟩
    intro e he hcreated hsame hlive
    exact absurd (hlapsed e he hcreated hsame) (not_le.mpr hlive)
  · obtain ⟨hstatus, hstored, -⟩ := check_held tx cfg ref ts hheld (h.fromKafka e he)
    have hnotFirst : (s.check rt cfg tx ref ts).1.reply.replayStatus ≠ .first := by
      rw [hstatus]
      split <;> simp
    refine ⟨⟨fun hfirst => absurd hfirst hnotFirst, fun hall => ?_⟩, ?_⟩
    · exact absurd (hall e he hcreated hsame) (not_le.mpr hlive)
    · intro e' he' hcreated' hsame' hlive'
      -- both creations hold the key, so they are of one reference
      have hheld' := h.held e' he' hcreated' hlive'
      rw [show e'.tx.replayHash rt = tx.replayHash rt from hsame', hheld] at hheld'
      obtain ⟨hrefs, -⟩ : e.ref = e'.ref ∧ e.time + replayTtl cfg = e'.time + replayTtl cfg := by
        simpa using hheld'
      rw [← hrefs, hstatus, hstored]
      refine ⟨?_, ?_, rfl, ?_⟩
      · change _ ↔ ref = e.ref
        split <;> simp_all
      · change _ ↔ ref ≠ e.ref
        split <;> simp_all
      · exact fun d hd => replayInterpret_details hd

/-- A check enters its reference into a free key and changes no other entry. -/
theorem Ledger.check (h : Ledger rt cfg before s) (hkafka : ∀ i, ref ≠ decisionRef i)
    (httl : 0 < cfg.replayTtlHours) :
    Ledger rt cfg (before ++ [(s.check rt cfg tx ref ts).1]) (s.check rt cfg tx ref ts).2 := by
  set c := (s.check rt cfg tx ref ts).1 with hc
  have hpos : s.now < s.now + replayTtl cfg := by
    unfold replayTtl
    omega
  have hothers : ∀ e ∈ before, e.Created → s.now < e.time + replayTtl cfg →
      (s.check rt cfg tx ref ts).2.db (replayKey (e.tx.replayHash rt)) =
        some ⟨.str (.text e.ref), some (e.time + replayTtl cfg)⟩ := by
    intro e he hcreated hlive
    have hheld := h.held e he hcreated hlive
    by_cases hsame : e.tx.replayHash rt = tx.replayHash rt
    · rw [hsame] at hheld ⊢
      exact (check_held tx cfg ref ts hheld (h.fromKafka e he)).2.2
    · rw [check_frame hsame]
      exact hheld
  refine ⟨?_, ?_, ?_⟩
  · intro e he
    rcases List.mem_append.mp he with he | he
    · exact h.fromKafka e he
    · rw [List.mem_singleton.mp he]
      exact hkafka
  · intro e he hcreated hlive
    rcases List.mem_append.mp he with he | he
    · exact hothers e he hcreated hlive
    · rw [List.mem_singleton.mp he] at hcreated ⊢
      -- a first delivery found the key free
      rcases h.cases (tx.replayHash rt) with ⟨hfree, -⟩ | ⟨e', he', -, -, -, hheld⟩
      · exact (check_free tx cfg ref ts hfree).2
      · have hstatus := (check_held tx cfg ref ts hheld (h.fromKafka e' he')).1
        rw [hc, Checked.Created, hstatus] at hcreated
        split at hcreated <;> cases hcreated
  · intro hash hpresent
    rcases h.cases hash with ⟨hfree, -⟩ | ⟨e, he, hcreated, hsame, hlive, -⟩
    · by_cases hsame : hash = tx.replayHash rt
      · subst hsame
        exact ⟨c, List.mem_append_right _ (List.mem_singleton_self _), (check_free tx cfg ref ts hfree).1, rfl, hpos⟩
      · rw [check_frame hsame] at hpresent
        exact absurd hfree hpresent
    · exact ⟨e, List.mem_append_left _ he, hcreated, hsame, hlive⟩

/-- What else happens changes no entry before its deadline, and leaves none after it. -/
theorem Ledger.frame (h : Ledger rt cfg before s) (hnow : s.now ≤ t.now)
    (hdb : ∀ hash, t.db (replayKey hash) = purge t.now s.db (replayKey hash)) : Ledger rt cfg before t where
  fromKafka := h.fromKafka
  held e he hcreated hlive := by
    rw [hdb, purge, h.held e he hcreated (lt_of_le_of_lt hnow hlive), Option.filter_some, if_pos]
    simpa using hlive
  created hash hpresent := by
    rw [hdb] at hpresent
    rcases h.cases hash with ⟨hfree, -⟩ | ⟨e, he, hcreated, hsame, hlive, hheld⟩
    · simp [purge, hfree] at hpresent
    · refine ⟨e, he, hcreated, hsame, ?_⟩
      rw [purge, hheld, Option.filter_some] at hpresent
      by_contra hlapsed
      exact hpresent (if_neg (by simpa using hlapsed))

/-- Nothing has lapsed at the time the ledger is for. -/
theorem Ledger.purge_eq (h : Ledger rt cfg before s) (hash : String) :
    purge s.now s.db (replayKey hash) = s.db (replayKey hash) := by
  rcases h.cases hash with ⟨hfree, -⟩ | ⟨e, he, hcreated, hsame, hlive, hheld⟩
  · simp [purge, hfree]
  · rw [purge, hheld, Option.filter_some, if_pos]
    simpa using hlive

theorem Ledger.step {l : Option Checked} (h : Ledger rt cfg before s) (hstep : FeedStep rt cfg s l t) :
    Ledger rt cfg (before ++ l.toList) t := by
  cases hstep with
  | check tx topic partition offset ts hts hlegal htopic httl =>
      exact h.check (recordRef_ne_decisionRef hlegal htopic partition offset) httl
  | other db hdb =>
      rw [Option.toList_none, List.append_nil]
      exact h.frame le_rfl fun hash => (hdb hash).trans (h.purge_eq hash).symm
  | tick now hnow =>
      rw [Option.toList_none, List.append_nil]
      exact h.frame hnow fun hash => rfl

end Step

/-! ## Batches are Kafka traffic -/

/-- A reference that Kafka gives out. -/
def FromKafka (ref : String) : Prop :=
  ∃ topic partition offset, LegalTopic topic ∧ topic ≠ "decision" ∧ ref = recordRef topic partition offset

/-- The transaction of an item, if the checks look at it. -/
def Item.analysedTx (db : Db) (it : Item) : Option (TransactionEvent × String) :=
  match it.event with
  | .tx tx => if (db (quarantineKey tx.userId)).isSome then none else some (tx, it.ref)
  | .auth _ => none

section Batch

variable {rt : Runtime} {kafka : KafkaConfig} {cfg : RedisConfig} {s : Timeline}

/-- The check of an item is a step, with its replay among the findings. -/
theorem step_scan (httl : 0 < cfg.replayTtlHours) {it : Item} (href : FromKafka it.ref)
    {ds : List DetectionEvent} (h : (it.scan rt cfg s.now s.db).1 = .ok ds) :
    ∃ l, FeedStep rt cfg s l ⟨s.now, it.advance rt cfg s.now s.db⟩ ∧
      l.map (fun c => (c.tx, c.ref)) = it.analysedTx s.db ∧
      ∀ c ∈ l, c.ref = it.ref ∧
        ∀ d, replayInterpret c.tx c.reply.replayStatus c.reply.storedRef = some d → d ∈ ds := by
  unfold Item.advance Item.analysedTx
  unfold Item.scan at h ⊢
  cases hev : it.event with
  | auth a =>
      refine ⟨none, .other _ fun hash => scanAuth_frame rt cfg s.now a s.db (replayKey_notMem_failKeys hash a), rfl, ?_⟩
      exact fun c hc => absurd hc (Option.not_mem_none c)
  | tx tx =>
      simp only [hev, scanTx] at h ⊢
      by_cases hblocked : (s.db (quarantineKey tx.userId)).isSome
      · simp only [hblocked, if_true]
        exact ⟨none, .other _ fun _ => rfl, rfl, fun c hc => absurd hc (Option.not_mem_none c)⟩
      simp only [hblocked, Bool.false_eq_true, if_false] at h ⊢
      cases hts : tx.timestamp.timestamp rt with
      | error e => simp [hts] at h
      | ok ts =>
          simp only [hts] at h ⊢
          obtain ⟨topic, partition, offset, hlegal, htopic, href⟩ := href
          rw [href] at h ⊢
          refine ⟨_, .check tx topic partition offset ts hts hlegal htopic httl, rfl, ?_⟩
          rintro _ ⟨⟩
          refine ⟨rfl, fun d hd => ?_⟩
          have hreplay : (txCheck rt s.now (txKeys rt tx) (txArgs cfg tx (recordRef topic partition offset) ts)
              s.db).1.replayStatus = .replay := by
            by_contra hne
            simp [replayInterpret, Timeline.check, hne] at hd
          rw [if_neg (by rw [hreplay]; simp)] at h
          cases h
          exact List.mem_filterMap.mpr ⟨_, List.mem_cons_self, hd⟩

/-- The checks of a batch are Kafka traffic: one delivery for each analysed transaction, in order. -/
theorem feed_scanned (httl : 0 < cfg.replayTtlHours) {items : List Item} (hfresh : ∀ it ∈ items, it.Fresh)
    (hrefs : ∀ it ∈ items, FromKafka it.ref) {cands : List DetectionEvent} {F : Db}
    (h : scanned rt cfg s.now items s.db = some (cands, F)) :
    ∃ ls, Run (FeedStep rt cfg) s ls ⟨s.now, F⟩ ∧
      ls.reduceOption.map (fun c => (c.tx, c.ref)) = items.filterMap (Item.analysedTx s.db) ∧
      ∀ c ∈ ls.reduceOption, ∀ d, replayInterpret c.tx c.reply.replayStatus c.reply.storedRef = some d →
        assignStableId rt c.ref d ∈ cands := by
  induction items generalizing s cands with
  | nil =>
      cases h
      exact ⟨[], .nil, rfl, fun c hc => absurd hc List.not_mem_nil⟩
  | cons it items ih =>
      rw [scanned_cons (hfresh it List.mem_cons_self)] at h
      obtain ⟨ds, hds, h⟩ := Option.bind_eq_some_iff.mp h
      obtain ⟨⟨rest, F'⟩, hrest, heq⟩ := Option.map_eq_some_iff.mp h
      cases heq
      obtain ⟨l, hstep, hl, hfound⟩ := step_scan httl (hrefs it List.mem_cons_self) (toOption_eq_some.mp hds)
      obtain ⟨ls, hrun, hls, hcands⟩ := ih (s := ⟨s.now, it.advance rt cfg s.now s.db⟩)
        (fun it hit => hfresh it (List.mem_cons_of_mem _ hit))
        (fun it hit => hrefs it (List.mem_cons_of_mem _ hit)) hrest
      -- the checks change no rule, so the same transactions are analysed
      have hrules : Item.analysedTx (it.advance rt cfg s.now s.db) = Item.analysedTx s.db := by
        funext it'
        unfold Item.analysedTx
        cases it'.event with
        | auth a => rfl
        | tx tx =>
            have hkey := (Later.advance rt cfg s.now it s.db).rules _ (enforcementKey_mem (.tx tx))
            simp only [Event.enforcementKey] at hkey
            simp only [hkey]
      refine ⟨l :: ls, .cons hstep hrun, ?_, ?_⟩
      · rw [List.filterMap_cons, ← hl, ← hrules, ← hls]
        cases l with
        | none => rfl
        | some c => rfl
      · intro c hc d hd
        cases l with
        | none => exact List.mem_append_right _ (hcands c hc d hd)
        | some c₀ =>
            rw [List.reduceOption_cons_of_some] at hc
            rcases List.mem_cons.mp hc with rfl | hc
            · obtain ⟨href, hmem⟩ := hfound c rfl
              rw [href]
              exact List.mem_append_left _ (List.mem_map_of_mem (hmem d hd))
            · exact List.mem_append_right _ (hcands c hc d hd)

/-- A call of `handle_batch` that returns is Kafka traffic. -/
theorem feed_handleBatch (httl : 0 < cfg.replayTtlHours) {records : List DecodedRecord}
    (hlegal : ∀ r ∈ records, LegalTopic r.topic ∧ r.topic ≠ "decision") {audits : List BlockedAudit}
    {result : BatchResult} {db' : Db}
    (h : handleBatch rt kafka cfg s.now records s.db = (⟨audits, .ok result⟩, db')) :
    ∃ ls, Run (FeedStep rt cfg) s ls ⟨s.now, db'⟩ ∧
      ls.reduceOption.map (fun c => (c.tx, c.ref)) =
        (validateRecords rt kafka 0 records).1.filterMap (Item.analysedTx s.db) := by
  obtain ⟨cands, F, -, hscanned, hcool⟩ := handleBatch_scanned h
  have hrefs : ∀ it ∈ (validateRecords rt kafka 0 records).1, FromKafka it.ref := by
    intro it hit
    rw [validateRecords_items] at hit
    obtain ⟨r, hr, he⟩ := List.mem_filterMap.mp hit
    obtain ⟨e, -, rfl⟩ := Option.map_eq_some_iff.mp he
    obtain ⟨hname, hne⟩ := hlegal r hr
    exact ⟨r.topic, r.partition, r.offset, hname, hne, rfl⟩
  obtain ⟨ls, hrun, hls, -⟩ := feed_scanned httl (validateRecords_fresh rt kafka 0 records) hrefs hscanned
  refine ⟨ls ++ [none], hrun.snoc (.other db' fun hash => ?_), ?_⟩
  · have hframe := (footprint_filterCooledDown cfg s.now cands).frame F (replayKey hash) fun hmem =>
      Set.disjoint_left.mp cooldownKeys_disjoint (Or.inl (mem_keyFamilies (by simp) _)) hmem
    rwa [hcool] at hframe
  · rw [List.reduceOption_append, List.reduceOption_singleton, Option.toList_none, List.append_nil]
    exact hls

end Batch

/-- The replay status of Kafka traffic is exact, for every history of deliveries, from an empty ledger: at
every point of it the key that a delivery created holds its reference until `replay_ttl` after the creation,
and the next delivery gets the status the ledger calls for. -/
theorem replay_status_exact (rt : Runtime) (cfg : RedisConfig) {s t : Timeline} {ls : List (Option Checked)}
    (hnone : ∀ hash, s.db (replayKey hash) = none) (hrun : Run (FeedStep rt cfg) s ls t) :
    (∀ e ∈ ls.reduceOption, e.Created → t.now < e.time + replayTtl cfg →
      t.db (replayKey (e.tx.replayHash rt)) = some ⟨.str (.text e.ref), some (e.time + replayTtl cfg)⟩) ∧
    ∀ c u, FeedStep rt cfg t (some c) u → ExactStatus rt cfg ls.reduceOption c := by
  have hledger : Ledger rt cfg ls.reduceOption t := by
    refine hrun.history (I := fun ls t => Ledger rt cfg ls.reduceOption t) ?_ fun ls a l b ha hl => ?_
    · exact ⟨fun _ he => absurd he List.not_mem_nil, fun _ he => absurd he List.not_mem_nil,
        fun hash hpresent => absurd (hnone hash) hpresent⟩
    · rw [List.reduceOption_append, List.reduceOption_singleton]
      exact ha.step hl
  refine ⟨hledger.held, fun c u hstep => ?_⟩
  cases hstep with
  | check => exact hledger.exact

namespace Sample

theorem tx_timestamp (eventId : String) : (tx eventId).timestamp.timestamp runtime = .ok 1704067200 := by
  have hseconds : (tx "").timestamp.civilSeconds - (0 : ℤ) = 1704067200 := by decide +kernel
  exact congrArg Except.ok hseconds

theorem legalTopic_txEvents : LegalTopic "tx-events" := by
  simp [LegalTopic]

end Sample

open Sample in
/-- A payload comes again under other event ids, in the same record and in another one. -/
theorem replay_status_exact_repeats :
    let s : Timeline := ⟨0, fun _ => none⟩
    let out₁ := s.check runtime {} (tx "e1") (recordRef "tx-events" 0 0) 1704067200
    let out₂ := out₁.2.check runtime {} (tx "e2") (recordRef "tx-events" 0 0) 1704067200
    let out₃ := out₂.2.check runtime {} (tx "e3") (recordRef "tx-events" 0 1) 1704067200
    out₁.1.Created ∧ out₂.1.reply.replayStatus = .redelivery ∧ out₃.1.reply.replayStatus = .replay ∧
      ExactStatus runtime {} [out₁.1, out₂.1] out₃.1 := by
  intro s out₁ out₂ out₃
  have hstep : ∀ (s : Timeline) (i : String) (offset : ℕ),
      FeedStep runtime {} s (some (s.check runtime {} (tx i) (recordRef "tx-events" 0 offset) 1704067200).1) _ :=
    fun s i offset => .check (tx i) "tx-events" 0 offset _ (tx_timestamp i) legalTopic_txEvents (by decide) (by decide)
  have hrun : Run (FeedStep runtime {}) s [some out₁.1, some out₂.1] out₂.2 :=
    .cons (hstep s "e1" 0) (.single (hstep out₁.2 "e2" 0))
  have hexact := (replay_status_exact runtime {} (fun _ => rfl) hrun).2 _ _ (hstep out₂.2 "e3" 1)
  have hkafka := recordRef_ne_decisionRef legalTopic_txEvents (by decide) 0 0
  obtain ⟨hfirst, hentry⟩ := check_free (s := s) (tx "e1") {} (recordRef "tx-events" 0 0) 1704067200 rfl
  obtain ⟨hagain, -, hheld⟩ := check_held (tx "e2") {} (recordRef "tx-events" 0 0) 1704067200 hentry hkafka
  obtain ⟨hreplay, -, -⟩ := check_held (tx "e3") {} (recordRef "tx-events" 0 1) 1704067200 hheld hkafka
  exact ⟨hfirst, hagain, hreplay, hexact⟩

end Rtace
