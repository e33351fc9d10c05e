import Rtace.Common.Keys
import Rtace.Common.Text
import Rtace.Decision.Engine
import Rtace.Lib.Separated

/-!
# What the replay payload identifies

The payload joins five fields with `|`, and user, merchant and location may hold a `|` themselves. Amount
and timestamp are recognisable, so a payload stands for one request exactly if no part of its free fields
looks like an amount or a timestamp where one could be read (`Plain`). Both services build the payload
alike, each with its own way of writing amounts and timestamps.
-/

namespace Rtace

open Lib Engine

section Generic

variable {T : Type} (amountText : Flt → String) (timeText : T → String)

/-- The payload of a request. -/
def payloadOf (user : String) (amount : Flt) (merchant : String) (time : T) (location : String) : String :=
  user ++ "|" ++ amountText amount ++ "|" ++ merchant ++ "|" ++ timeText time ++ "|" ++ location

/-- No part of the user after the first `|` and no part of the merchant before the last `|` is the text of
an amount; no part of the merchant after the first `|` and no part of the location before the last `|` is
the text of a timestamp. -/
def Plain (user merchant location : String) : Prop :=
  Unmistakable (fun s => ∃ x, (amountText x).toList = s) (fun s => ∃ t, (timeText t).toList = s)
    (user.toList.splitOn '|') (merchant.toList.splitOn '|') (location.toList.splitOn '|')

variable {amountText timeText}

theorem payloadOf_toList (user : String) (amount : Flt) (merchant : String) (time : T) (location : String) :
    (payloadOf amountText timeText user amount merchant time location).toList =
      joined '|' user.toList (amountText amount).toList merchant.toList (timeText time).toList location.toList := by
  simp [payloadOf, joined]

/-- A payload stands for one request exactly if its free fields are plain. -/
theorem payloadOf_unique_iff (hamount : ∀ x, '|' ∉ (amountText x).toList ∧ 'T' ∉ (amountText x).toList)
    (htime : ∀ t, '|' ∉ (timeText t).toList ∧ 'T' ∈ (timeText t).toList) (user : String) (amount : Flt)
    (merchant : String) (time : T) (location : String) :
    (∀ user' amount' merchant' time' location',
        payloadOf amountText timeText user' amount' merchant' time' location'
            = payloadOf amountText timeText user amount merchant time location →
          user' = user ∧ amountText amount' = amountText amount ∧ merchant' = merchant ∧
            timeText time' = timeText time ∧ location' = location) ↔
      Plain amountText timeText user merchant location := by
  unfold Plain
  rw [← joined_unique_iff (a := (amountText amount).toList) (t := (timeText time).toList)
    (by rintro _ ⟨x, rfl⟩; exact (hamount x).1) (by rintro _ ⟨t, rfl⟩; exact (htime t).1) ⟨amount, rfl⟩ ⟨time, rfl⟩
    (by rintro ⟨x, hx⟩; exact (hamount x).2 (hx ▸ (htime time).2))]
  constructor
  · rintro h u' _ m' _ l' ⟨x, rfl⟩ ⟨t, rfl⟩ heq
    have heq : payloadOf amountText timeText (String.ofList u') x (String.ofList m') t (String.ofList l') =
        payloadOf amountText timeText user amount merchant time location := by
      rw [String.ext_iff, payloadOf_toList, payloadOf_toList]
      simpa using heq
    obtain ⟨rfl, hx, rfl, ht, rfl⟩ := h _ _ _ _ _ heq
    simp [hx, ht]
  · intro h user' amount' merchant' time' location' heq
    rw [String.ext_iff, payloadOf_toList, payloadOf_toList] at heq
    obtain ⟨hu, ha, hm, ht, hl⟩ := h _ _ _ _ _ ⟨amount', rfl⟩ ⟨time', rfl⟩ heq
    exact ⟨String.ext_iff.mpr hu, String.ext_iff.mpr ha, String.ext_iff.mpr hm, String.ext_iff.mpr ht,
      String.ext_iff.mpr hl⟩

/-- The same for the values behind the texts. -/
theorem payloadOf_identifies_iff {R : Flt → Flt → Prop} {S : T → T → Prop}
    (hamount : ∀ x, '|' ∉ (amountText x).toList ∧ 'T' ∉ (amountText x).toList)
    (htime : ∀ t, '|' ∉ (timeText t).toList ∧ 'T' ∈ (timeText t).toList)
    (hR : ∀ x y, amountText x = amountText y → R x y) (hS : ∀ t t', timeText t = timeText t' ↔ S t t')
    (user : String) (amount : Flt) (merchant : String) (time : T) (location : String) :
    (∀ user' amount' merchant' time' location',
        payloadOf amountText timeText user' amount' merchant' time' location'
            = payloadOf amountText timeText user amount merchant time location →
          user' = user ∧ R amount' amount ∧ merchant' = merchant ∧ S time' time ∧ location' = location) ↔
      Plain amountText timeText user merchant location := by
  rw [← payloadOf_unique_iff hamount htime user amount merchant time location]
  constructor
  · intro h user' amount' merchant' time' location' heq
    obtain ⟨rfl, -, rfl, ht, rfl⟩ := h _ _ _ _ _ heq
    have ht := (hS _ _).mpr ht
    -- all other fields are the same, so the amounts are
    have ha : amountText amount' = amountText amount := by simpa [payloadOf, ht] using heq
    exact ⟨rfl, ha, rfl, ht, rfl⟩
  · intro h user' amount' merchant' time' location' heq
    obtain ⟨hu, ha, hm, ht, hl⟩ := h _ _ _ _ _ heq
    exact ⟨hu, hR _ _ ha, hm, (hS _ _).mp ht, hl⟩

end Generic

/-! ## The two services -/

/-- The payload of a transaction event stands for its request: equal payloads have equal fields, and users
who differ have different replay keys. -/
structure TransactionEvent.Identified (tx : TransactionEvent) : Prop where
  fields : ∀ tx' : TransactionEvent, tx'.replayPayload = tx.replayPayload →
    tx'.userId = tx.userId ∧ tx'.amount.SameCents tx.amount ∧ tx'.merchant = tx.merchant ∧
      tx'.timestamp = tx.timestamp ∧ tx'.location = tx.location
  keys : ∀ rt : Runtime, Function.Injective rt.sha256 → ∀ tx' : TransactionEvent, tx'.userId ≠ tx.userId →
    replayKey (tx'.replayHash rt) ≠ replayKey (tx.replayHash rt)

/-- The same of a transaction of the decision service; its timestamp is told apart as far as it is
printed. -/
structure Engine.Transaction.Identified (tx : Transaction) : Prop where
  fields : ∀ tx' : Transaction, tx'.replayPayload = tx.replayPayload →
    tx'.userId = tx.userId ∧ tx'.amount.SameCents tx.amount ∧ tx'.merchant = tx.merchant ∧
      pythonISOFormat tx'.timestamp = pythonISOFormat tx.timestamp ∧ tx'.location = tx.location
  keys : ∀ rt : Runtime, Function.Injective rt.sha256 → ∀ tx' : Transaction, tx'.userId ≠ tx.userId →
    replayKey (tx'.replayHash rt) ≠ replayKey (tx.replayHash rt)

theorem formatCents_chars (x : Flt) : '|' ∉ (formatCents x).toList ∧ 'T' ∉ (formatCents x).toList := by
  cases x with
  | num q =>
      refine ⟨fun h => ?_, fun h => ?_⟩
      · exact absurd (mem_formatCents_num h) (by decide)
      · exact absurd (mem_formatCents_num h) (by decide)
  | nan => decide
  | inf neg => cases neg <;> decide

theorem formatCentsGo_chars (x : Flt) : '|' ∉ (formatCentsGo x).toList ∧ 'T' ∉ (formatCentsGo x).toList := by
  cases x with
  | num q => exact formatCents_chars (.num q)
  | nan => decide
  | inf neg => cases neg <;> decide

theorem formatCentsGo_inj {x y : Flt} (h : formatCentsGo x = formatCentsGo y) : x.SameCents y :=
  sameCents_of_text formatCentsGo (fun _ => rfl) (by decide) (by decide) (by decide) h

theorem isoformat_chars (t : Datetime) : '|' ∉ t.isoformat.toList ∧ 'T' ∈ t.isoformat.toList :=
  ⟨t.bar_notMem_isoformat, t.t_mem_isoformat⟩

theorem pythonISOFormat_chars (t : GoTime) :
    '|' ∉ (pythonISOFormat t).toList ∧ 'T' ∈ (pythonISOFormat t).toList := by
  constructor
  · simp only [pythonISOFormat, GoTime.offsetText, String.toList_append, List.mem_append, bar_notMem_padZero, or_false]
    split <;> split <;> simp [bar_notMem_padZero]
  · simp [pythonISOFormat]

theorem TransactionEvent.identified_iff (tx : TransactionEvent) :
    tx.Identified ↔ Plain formatCents Datetime.isoformat tx.userId tx.merchant tx.location := by
  rw [← payloadOf_identifies_iff formatCents_chars isoformat_chars (fun _ _ => formatCents_inj)
    (fun _ _ => Datetime.isoformat_injective.eq_iff) tx.userId tx.amount tx.merchant tx.timestamp tx.location]
  constructor
  · intro h user amount merchant time location heq
    exact h.fields { tx with userId := user, amount, merchant, timestamp := time, location } heq
  · intro h
    have hfields := fun tx' : TransactionEvent => h tx'.userId tx'.amount tx'.merchant tx'.timestamp tx'.location
    refine ⟨hfields, fun rt hinj tx' hne hkey => hne ?_⟩
    exact (hfields tx' (hinj (replayKey_injective hkey))).1

theorem Engine.Transaction.identified_iff (tx : Transaction) :
    tx.Identified ↔ Plain formatCentsGo pythonISOFormat tx.userId tx.merchant tx.location := by
  rw [← payloadOf_identifies_iff (S := fun t t' => pythonISOFormat t = pythonISOFormat t') formatCentsGo_chars
    pythonISOFormat_chars (fun _ _ => formatCentsGo_inj) (fun _ _ => Iff.rfl) tx.userId tx.amount tx.merchant
    tx.timestamp tx.location]
  constructor
  · intro h user amount merchant time location heq
    exact h.fields { tx with userId := user, amount, merchant, timestamp := time, location } heq
  · intro h
    have hfields := fun tx' : Transaction => h tx'.userId tx'.amount tx'.merchant tx'.timestamp tx'.location
    refine ⟨hfields, fun rt hinj tx' hne hkey => hne ?_⟩
    exact (hfields tx' (hinj (replayKey_injective hkey))).1

/-- The payload identifies the request in either service exactly if user, merchant and location are plain. -/
theorem identified_iff_plain (event : TransactionEvent) (tx : Transaction) :
    (event.Identified ↔ Plain formatCents Datetime.isoformat event.userId event.merchant event.location) ∧
      (tx.Identified ↔ Plain formatCentsGo pythonISOFormat tx.userId tx.merchant tx.location) :=
  ⟨event.identified_iff, tx.identified_iff⟩

/-- Two requests of different users with one payload: the amount of either is part of a name of the other. -/
theorem payload_shared :
    let time : Datetime := ⟨2024, 1, 1, 0, 0, 0, 0, some 0, by decide⟩
    let tx : TransactionEvent := ⟨"e1", "a|1.00|b", .num 2, "c", time, "NYC", .num 0, .num 0⟩
    let tx' : TransactionEvent := ⟨"e2", "a", .num 1, "b|2.00|c", time, "NYC", .num 0, .num 0⟩
    tx'.replayPayload = tx.replayPayload ∧ tx'.userId ≠ tx.userId ∧
      ∀ rt, replayKey (tx'.replayHash rt) = replayKey (tx.replayHash rt) := by
  intro time tx tx'
  have heq : tx'.replayPayload = tx.replayPayload := by decide +kernel
  exact ⟨heq, by decide, fun rt => congrArg (fun p => replayKey (rt.sha256 p)) heq⟩

end Rtace
