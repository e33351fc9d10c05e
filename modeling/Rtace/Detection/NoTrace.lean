import Rtace.Decision.Document
import Rtace.Detection.SingleRecord

/-!
# Refused and ignored events leave no trace

An item that phase A blocks, and a successful login, stay in the item list of `_run` through all its
phases, but no phase has anything for them: a batch and the batch without them give the same result on
the same keyspace. `Decide` likewise answers a refused transaction before it writes anything.
-/

namespace Rtace

open Lib Redis

/-- The event of a record, if it passes validation. -/
def DecodedRecord.event (rt : Runtime) (kafka : KafkaConfig) (r : DecodedRecord) : Option Event :=
  if r.topic = kafka.authEventsTopic then (rt.validateAuth r.value).map .auth
  else (rt.validateTx r.value).map .tx

/-- The records the checks look at: valid, not refused by a rule, not a successful login. -/
def DecodedRecord.checked (rt : Runtime) (kafka : KafkaConfig) (db : Db) (r : DecodedRecord) : Bool :=
  match r.event rt kafka with
  | none => false
  | some (.tx tx) => (db (quarantineKey tx.userId)).isNone
  | some (.auth a) => (db (ipBlockKey a.ipAddress)).isNone && !a.success

/-! ## Idle items -/

/-- An item that the checks pass over. -/
structure Item.Idle (it : Item) : Prop where
  inactive : it.active = false
  result : it.result = none
  candidates : it.candidates = []

/-- `Thinned I J`: `J` is `I` without some of its idle items. -/
inductive Thinned : List Item → List Item → Prop
  | nil : Thinned [] []
  | keep {I J : List Item} (it : Item) : Thinned I J → Thinned (it :: I) (it :: J)
  | drop {I J : List Item} {it : Item} : it.Idle → Thinned I J → Thinned (it :: I) J

theorem Item.Idle.not_prescored {it : Item} (h : it.Idle) : it.prescored = false := by
  unfold Item.prescored
  rw [h.result]
  cases it.event with
  | tx tx => rfl
  | auth a => rfl

theorem Item.Idle.interpretItem {it : Item} (h : it.Idle) (cfg : RedisConfig) : interpretItem cfg it = it := by
  unfold Rtace.interpretItem
  rw [h.result]
  cases it.event with
  | tx tx => rfl
  | auth a => rfl

namespace Thinned

variable {I J : List Item}

/-- Filters that reject idle items see the same items. -/
theorem filter (h : Thinned I J) {p : Item → Bool} (hp : ∀ it : Item, it.Idle → p it = false) :
    I.filter p = J.filter p := by
  induction h with
  | nil => rfl
  | keep it _ ih => rw [List.filter_cons, List.filter_cons, ih]
  | drop hidle _ ih => rw [List.filter_cons_of_neg (by simp [hp _ hidle]), ih]

theorem assignResults (h : Thinned I J) (rs : List Reply) :
    Thinned (assignResults I rs) (assignResults J rs) := by
  induction h generalizing rs with
  | nil => exact .nil
  | @keep I J it h ih =>
      simp only [Rtace.assignResults]
      split
      · -- a reply for each active item, in order
        cases rs with
        | nil => exact .keep it h
        | cons r rs => exact .keep _ (ih rs)
      · exact .keep it (ih rs)
  | drop hidle _ ih =>
      simp only [Rtace.assignResults, hidle.inactive, Bool.false_eq_true, if_false]
      exact .drop hidle (ih rs)

theorem interpret (h : Thinned I J) (cfg : RedisConfig) :
    Thinned (I.map (interpretItem cfg)) (J.map (interpretItem cfg)) := by
  induction h with
  | nil => exact .nil
  | keep it _ ih => exact .keep _ ih
  | drop hidle _ ih =>
      rw [List.map_cons, hidle.interpretItem]
      exact .drop hidle ih

/-- Idle items have no candidates. -/
theorem collectCandidates (h : Thinned I J) (rt : Runtime) : collectCandidates rt I = collectCandidates rt J := by
  induction h with
  | nil => rfl
  | keep it _ ih =>
      unfold Rtace.collectCandidates at ih ⊢
      rw [List.flatMap_cons, List.flatMap_cons, ih]
  | drop hidle _ ih =>
      unfold Rtace.collectCandidates at ih ⊢
      rw [List.flatMap_cons, hidle.candidates, ih]
      rfl

/-- Phase C gives both lists the same candidates, or raises the same exception. -/
theorem assignDecisions (h : Thinned I J) (rt : Runtime) (raws : List (Option Payload)) :
    (assignDecisions I raws).map (Rtace.collectCandidates rt) =
      (assignDecisions J raws).map (Rtace.collectCandidates rt) := by
  have hcons : ∀ (it : Item) (out : Except PyError (List Item)),
      (out.map fun rest => it :: rest).map (Rtace.collectCandidates rt) =
        (out.map (Rtace.collectCandidates rt)).map
          fun ds => it.candidates.map (assignStableId rt it.ref) ++ ds := by
    intro it out
    cases out with
    | error e => rfl
    | ok rest => simp [Except.map, Rtace.collectCandidates]
  induction h generalizing raws with
  | nil => rfl
  | @keep I J it h ih =>
      simp only [Rtace.assignDecisions]
      split
      · split
        · rename_i tx raw _ _
          cases detectionsFromDecision tx raw with
          | error e => rfl
          | ok found =>
              simp only [Except.bind]
              rw [hcons, hcons, ih]
        · simp only [Except.map]
          rw [(Thinned.keep it h).collectCandidates]
      · rw [hcons, hcons, ih]
  | @drop I J it hidle _ ih =>
      simp only [Rtace.assignDecisions, hidle.not_prescored, Bool.false_eq_true, if_false]
      rw [hcons, ih, hidle.candidates]
      cases Rtace.assignDecisions J raws with
      | error e => rfl
      | ok rest => rfl

end Thinned

/-! ## A batch and the batch without idle items -/

section

variable {rt : Runtime} {kafka : KafkaConfig} {db : Db}

/-- The items of the records. -/
theorem validateRecords_items (rt : Runtime) (kafka : KafkaConfig) (i : ℕ) (records : List DecodedRecord) :
    (validateRecords rt kafka i records).1 =
      records.filterMap fun r => (r.event rt kafka).map fun e => { event := e, ref := r.ref } := by
  induction records generalizing i with
  | nil => rfl
  | cons r rs ih =>
      rw [List.filterMap_cons, ← ih (i + 1)]
      simp only [validateRecords, DecodedRecord.event]
      split
      · rename_i e he
        rw [he]
        rfl
      · rename_i he
        rw [he]
        rfl

end

end Rtace
