import Rtace.Detection.NoTrace
import Rtace.Detection.Retry

/-!
# Poison records

`handle_batch` reports a record that fails validation under its index. What fails later in the work on a
single record, the conversion of its timestamp or the decoding of the decision it was prescored with, is an
exception of the whole batch, and the consumer loop then dead-letters every record of the poll. A batch is
free of that exactly if each record that the checks look at is sound.
-/

namespace Rtace

open Lib Redis

section

variable (rt : Runtime) (kafka : KafkaConfig) (cfg : RedisConfig) (now : ℕ) (db : Db)

/-- The reference under a replay key after the records `before`: the stored one, else that of the first of
them that the checks look at and that has this payload. -/
def heldRef (before : List DecodedRecord) (hash : String) : Option Payload :=
  (storedRef db (replayKey hash)).or
    ((before.find? fun r => r.checked rt kafka db &&
      match r.event rt kafka with
      | some (.tx tx) => tx.replayHash rt = hash
      | _ => false).map fun r => .text r.ref)

/-- The timestamp converts; and if the decision service scored the event, its decision decodes. -/
def DecodedRecord.Sound (before : List DecodedRecord) (r : DecodedRecord) : Prop :=
  match r.event rt kafka with
  | none => True
  | some (.auth a) => ∃ ts, a.timestamp.timestamp rt = .ok ts
  | some (.tx tx) =>
      (∃ ts, tx.timestamp.timestamp rt = .ok ts) ∧
      (heldRef rt kafka db before (tx.replayHash rt) = some (.text (decisionRef tx.eventId)) →
        r.ref ≠ decisionRef tx.eventId →
        ∃ ds, detectionsFromDecision tx (payload (db (resultKey tx.eventId))) = .ok ds)

/-- Every record that the checks look at is sound, after the records before it. -/
def SoundBatch : List DecodedRecord → List DecodedRecord → Prop
  | _, [] => True
  | before, r :: rs => (r.checked rt kafka db → r.Sound rt kafka db before) ∧ SoundBatch (before ++ [r]) rs

end

/-! ## One record -/

/-- The item of a valid record. -/
def DecodedRecord.item (r : DecodedRecord) (e : Event) : Item := { event := e, ref := r.ref }

/-- `db'` is the keyspace after the checks of `before`, as far as they can make later records fail. -/
structure After (rt : Runtime) (kafka : KafkaConfig) (db : Db) (before : List DecodedRecord) (db' : Db) : Prop where
  rules : ∀ k ∈ readOnlyKeys, db' k = db k
  refs : ∀ hash, storedRef db' (replayKey hash) = heldRef rt kafka db before hash

section

variable {rt : Runtime} {kafka : KafkaConfig} {cfg : RedisConfig} {now : ℕ} {db db' : Db}

theorem checked_congr (r : DecodedRecord) (h : ∀ k ∈ readOnlyKeys, db' k = db k) :
    r.checked rt kafka db' = r.checked rt kafka db := by
  unfold DecodedRecord.checked
  cases r.event rt kafka with
  | none => rfl
  | some e =>
      cases e with
      | tx tx =>
          have hkey : db' (quarantineKey tx.userId) = db (quarantineKey tx.userId) := h _ (enforcementKey_mem (.tx tx))
          simp only [hkey]
      | auth a =>
          have hkey : db' (ipBlockKey a.ipAddress) = db (ipBlockKey a.ipAddress) := h _ (enforcementKey_mem (.auth a))
          simp only [hkey]

theorem After.nil (rt : Runtime) (kafka : KafkaConfig) (db : Db) : After rt kafka db [] db where
  rules _ _ := rfl
  refs hash := by simp [heldRef]

/-- What one more record adds to the references. -/
theorem heldRef_concat (before : List DecodedRecord) (r : DecodedRecord) (hash : String) :
    heldRef rt kafka db (before ++ [r]) hash =
      (heldRef rt kafka db before hash).or
        (if r.checked rt kafka db &&
            (match r.event rt kafka with
            | some (.tx tx) => tx.replayHash rt = hash
            | _ => false) then some (.text r.ref) else none) := by
  simp only [heldRef, List.find?_append, Option.map_or, Option.or_assoc]
  congr 2
  rw [List.find?_singleton, apply_ite (Option.map _)]
  rfl

/-- The check of a sound record stores its reference unless there is one. -/
theorem After.advance {before : List DecodedRecord} (h : After rt kafka db before db') {r : DecodedRecord}
    {e : Event} (he : r.event rt kafka = some e) (hr : r.checked rt kafka db)
    (hsound : r.Sound rt kafka db before) :
    After rt kafka db (before ++ [r]) ((r.item e).advance rt cfg now db') where
  rules k hk := ((Later.advance rt cfg now (r.item e) db').rules k hk).trans (h.rules k hk)
  refs hash := by
    have hchecked := hr
    rw [← checked_congr r h.rules] at hchecked
    unfold DecodedRecord.checked at hchecked
    unfold DecodedRecord.Sound at hsound
    rw [he] at hchecked hsound
    rw [heldRef_concat, ← h.refs, hr, he]
    cases e with
    | auth a =>
        -- a login has no replay key
        simp only [Bool.and_false, Bool.false_eq_true, if_false, Option.or_none]
        rw [storedRef, Item.advance, Item.scan, DecodedRecord.item,
          scanAuth_frame rt cfg now a db' (replayKey_notMem_failKeys hash a)]
        rfl
    | tx tx =>
        obtain ⟨⟨ts, hts⟩, -⟩ := hsound
        have hfree : db' (quarantineKey tx.userId) = none := by simpa using hchecked
        simp only [Item.advance, Item.scan, DecodedRecord.item, scanTx_free cfg now r.ref hts hfree]
        by_cases hkey : tx.replayHash rt = hash
        · subst hkey
          have hstored := storedRef_txCheck rt now (txArgs cfg tx r.ref ts) db' (txKeys_distinct rt tx)
          rw [txKeys] at hstored ⊢
          rw [hstored]
          cases storedRef db' (replayKey (tx.replayHash rt)) with
          | none => simp [txArgs]
          | some p => simp
        · have hne : replayKey hash ≠ (txKeys rt tx).replay := fun h =>
            hkey (String.append_right_inj replayKeyPrefix |>.mp h).symm
          rw [storedRef, txCheck_replay_frame hne]
          simp [hkey, storedRef]

/-! ## A batch -/

/-- A record that is sound in a batch is sound alone. -/
theorem DecodedRecord.Sound.alone {before : List DecodedRecord} {r : DecodedRecord} (h : r.Sound rt kafka db before) :
    r.Sound rt kafka db [] := by
  unfold DecodedRecord.Sound at h ⊢
  cases hev : r.event rt kafka with
  | none => trivial
  | some e =>
      rw [hev] at h
      cases e with
      | auth a => exact h
      | tx tx =>
          refine ⟨h.1, fun hheld => h.2 ?_⟩
          rw [heldRef, Option.or_eq_some_iff] at hheld
          rw [heldRef, Option.or_eq_some_iff]
          exact Or.inl (by simpa using hheld)

theorem SoundBatch.mem {before records : List DecodedRecord} (h : SoundBatch rt kafka db before records)
    {r : DecodedRecord} (hr : r ∈ records) (hchecked : r.checked rt kafka db) : r.Sound rt kafka db [] := by
  induction records generalizing before with
  | nil => cases hr
  | cons r' rs ih =>
      rcases List.mem_cons.mp hr with rfl | hr
      · exact (h.1 hchecked).alone
      · exact ih h.2 hr

end

/-! ## A timestamp that does not convert -/

namespace Sample

end Sample

section

open Sample

end

end Rtace
