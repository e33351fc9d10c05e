import Rtace.Common.Value

/-!
# Events

`common/models.py`: the transaction, login and detection events, the replay hash and the stable
detection id, with the part of `datetime` they use.
-/

namespace Rtace

/-- Days in the years before `year` of the proleptic Gregorian calendar. -/
def daysBeforeYear (year : ℕ) : ℕ :=
  let y := year - 1
  y * 365 + y / 4 - y / 100 + y / 400

def isLeap (year : ℕ) : Bool := year % 4 = 0 ∧ (year % 100 ≠ 0 ∨ year % 400 = 0)

def daysInMonth (year month : ℕ) : ℕ :=
  if month = 2 then (if isLeap year then 29 else 28)
  else if month = 4 ∨ month = 6 ∨ month = 9 ∨ month = 11 then 30 else 31

/-- Days of `year` before the first of `month`. -/
def daysBeforeMonth (year month : ℕ) : ℕ :=
  ((List.range (month - 1)).map fun i => daysInMonth year (i + 1)).sum

/-- A Python `datetime`: civil fields in range, and the UTC offset in seconds of an aware value. -/
structure Datetime where
  year : ℕ
  month : ℕ
  day : ℕ
  hour : ℕ
  minute : ℕ
  second : ℕ
  microsecond : ℕ
  utcoffset : Option ℤ
  valid : 1 ≤ year ∧ year ≤ 9999 ∧ 1 ≤ month ∧ month ≤ 12 ∧ 1 ≤ day ∧ day ≤ daysInMonth year month ∧
    hour < 24 ∧ minute < 60 ∧ second < 60 ∧ microsecond < 1000000 ∧
    ∀ o ∈ utcoffset, -86400 < o ∧ o < 86400

namespace Datetime

/-- The offset suffix of `isoformat()`: `+HH:MM`, with seconds only when they are not zero. -/
def offsetText (o : ℤ) : String :=
  let a := o.natAbs
  (if o < 0 then "-" else "+") ++ padZero 2 (a / 3600) ++ ":" ++ padZero 2 (a / 60 % 60) ++
    (if a % 60 = 0 then "" else ":" ++ padZero 2 (a % 60))

/-- `datetime.isoformat()`. -/
def isoformat (t : Datetime) : String :=
  padZero 4 t.year ++ "-" ++ padZero 2 t.month ++ "-" ++ padZero 2 t.day ++ "T" ++
    padZero 2 t.hour ++ ":" ++ padZero 2 t.minute ++ ":" ++ padZero 2 t.second ++
    (if t.microsecond = 0 then "" else "." ++ padZero 6 t.microsecond) ++
    match t.utcoffset with
    | none => ""
    | some o => offsetText o

/-- Seconds since the Unix epoch of the civil fields read as UTC. -/
def civilSeconds (t : Datetime) : ℚ :=
  let days : ℤ := daysBeforeYear t.year + daysBeforeMonth t.year t.month + t.day - 719163
  days * 86400 + (t.hour * 3600 + t.minute * 60 + t.second : ℕ) + (t.microsecond : ℚ) / 1000000

end Datetime

/-- `TransactionEvent`. -/
structure TransactionEvent where
  eventId : String
  userId : String
  amount : Flt
  merchant : String
  timestamp : Datetime
  location : String
  latitude : Flt
  longitude : Flt

/-- `AuthEvent`. -/
structure AuthEvent where
  eventId : String
  userId : String
  ipAddress : String
  success : Bool
  timestamp : Datetime

/-- Where a detection's `timestamp` comes from: `datetime.now` or the event. -/
inductive Stamp where
  | wallClock
  | event (t : Datetime)

/-- `DetectionEvent`. The type is an open string: containment meets types it does not know. -/
structure DetectionEvent where
  detectionId : String
  detectionType : String
  severity : String
  userId : String
  transactionId : String
  timestamp : Stamp
  ipAddress : Option String
  details : Dict

/-- What the code takes from its libraries and language runtimes. -/
structure Runtime where
  /-- `TransactionEvent.model_validate`; `none` is a `ValidationError`. -/
  validateTx : Json → Option TransactionEvent
  /-- `AuthEvent.model_validate`. -/
  validateAuth : Json → Option AuthEvent
  /-- `sha256(payload).hexdigest()`, the same in Python and Go. -/
  sha256 : String → String
  /-- `str(uuid.uuid5(NAMESPACE_URL, identity))`. -/
  uuid5 : String → String
  /-- `timestamp()` of a timezone-naive value; `none` where it raises `ValueError`. -/
  naiveTimestamp : Datetime → Option ℚ
  /-- `str()` of a JSON value that is not a string. -/
  strOf : Json → String
  pi : ℚ
  sin : ℚ → ℚ
  cos : ℚ → ℚ
  asin : ℚ → ℚ
  sqrt : ℚ → ℚ

/-- `datetime.timestamp()`. -/
def Datetime.timestamp (rt : Runtime) (t : Datetime) : Except PyError ℚ :=
  match t.utcoffset with
  | some o => .ok (t.civilSeconds - o)
  | none =>
      match rt.naiveTimestamp t with
      | some q => .ok q
      | none => .error .valueError

/-- The string `TransactionEvent.replay_hash` hashes. -/
def TransactionEvent.replayPayload (tx : TransactionEvent) : String :=
  tx.userId ++ "|" ++ formatCents tx.amount ++ "|" ++ tx.merchant ++ "|" ++
    tx.timestamp.isoformat ++ "|" ++ tx.location

/-- `TransactionEvent.replay_hash`. -/
def TransactionEvent.replayHash (rt : Runtime) (tx : TransactionEvent) : String :=
  rt.sha256 tx.replayPayload

/-- `stable_detection_id`. -/
def stableDetectionId (rt : Runtime) (idPrefix ref detectionType scope : String) : String :=
  "det-" ++ idPrefix ++ "-" ++ rt.uuid5 (ref ++ ":" ++ detectionType ++ ":" ++ scope)

/-- `record_ref`: the identity of a Kafka delivery. -/
def recordRef (topic : String) (partition offset : ℕ) : String :=
  topic ++ ":" ++ toString partition ++ ":" ++ toString offset

private theorem append_colon_inj {a b a' b' : List Char} (hb : ':' ∉ b) (hb' : ':' ∉ b')
    (h : a ++ ':' :: b = a' ++ ':' :: b') : a = a' ∧ b = b' := by
  rcases List.append_eq_append_iff.mp h with ⟨cs, rfl, hcs⟩ | ⟨cs, rfl, hcs⟩
  · cases cs with
    | nil => simpa using hcs
    | cons c cs =>
        obtain ⟨-, rfl⟩ := List.cons_eq_cons.mp hcs
        simp at hb
  · cases cs with
    | nil => simpa using hcs.symm
    | cons c cs =>
        obtain ⟨-, rfl⟩ := List.cons_eq_cons.mp hcs
        simp at hb'

/-- Different records have different references: partition and offset are digits after the last two
colons, whatever the topic is. -/
theorem recordRef_inj {topic topic' : String} {partition partition' offset offset' : ℕ} :
    recordRef topic partition offset = recordRef topic' partition' offset' ↔
      topic = topic' ∧ partition = partition' ∧ offset = offset' := by
  have hdigits : ∀ n : ℕ, ':' ∉ Nat.toDigits 10 n := fun n h =>
    absurd (Nat.isDigit_of_mem_toDigits (by decide) (by decide) h) (by decide)
  have hnum : ∀ {m n : ℕ}, Nat.toDigits 10 m = Nat.toDigits 10 n → m = n := by
    intro m n h
    rw [← Nat.ofDigitChars_ten_toDigits (n := m), h, Nat.ofDigitChars_ten_toDigits]
  constructor
  · intro h
    have hlist : ∀ (t : String) (p o : ℕ), (recordRef t p o).toList
        = (t.toList ++ ':' :: Nat.toDigits 10 p) ++ ':' :: Nat.toDigits 10 o := by
      intro t p o
      simp [recordRef, toString]
    have heq := congrArg String.toList h
    rw [hlist, hlist] at heq
    obtain ⟨hleft, hoffset⟩ := append_colon_inj (hdigits _) (hdigits _) heq
    obtain ⟨htopic, hpartition⟩ := append_colon_inj (hdigits _) (hdigits _) hleft
    exact ⟨String.ext_iff.mpr htopic, hnum hpartition, hnum hoffset⟩
  · rintro ⟨rfl, rfl, rfl⟩
    rfl

end Rtace
