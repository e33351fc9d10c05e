import Rtace.Common.Calendar
import Rtace.Common.Text
import Rtace.Decision.Engine
import Rtace.Detection.SingleRecord

/-!
# The two replay hashes

`ReplayHash` is meant to hash the same string as `TransactionEvent.replay_hash`. The Kafka side reads the
timestamp with pydantic, which keeps the offset it is written with; the decision side reads it through a
protobuf timestamp, which has none, and prints it in UTC. So the two strings are the same exactly for a
timestamp that is written in UTC.
-/

namespace Rtace

open Engine

/-! ## Timestamps on the wire -/

/-- An RFC 3339 timestamp as it is written: civil fields, the digits of the fraction, and the offset in
minutes. -/
structure TimestampText where
  year : ℕ
  month : ℕ
  day : ℕ
  hour : ℕ
  minute : ℕ
  second : ℕ
  fraction : List (Fin 10)
  offset : ℤ
  valid : 1 ≤ year ∧ year ≤ 9999 ∧ 1 ≤ month ∧ month ≤ 12 ∧ 1 ≤ day ∧ day ≤ daysInMonth year month ∧
    hour < 24 ∧ minute < 60 ∧ second < 60 ∧ -1440 < offset ∧ offset < 1440

/-- `google.protobuf.Timestamp`, in its documented range. -/
structure ProtoTimestamp where
  seconds : ℤ
  nanos : ℕ
  valid : -62135596800 ≤ seconds ∧ seconds ≤ 253402300799 ∧ nanos < 1000000000

/-- Seconds since the Unix epoch of civil fields in UTC. -/
def utcSeconds (year month day hour minute second : ℕ) : ℤ :=
  ((ordinal year month day : ℤ) - 719163) * 86400 + (hour * 3600 + minute * 60 + second : ℕ)

namespace TimestampText

/-- The first `width` digits of the fraction, as a number. -/
def units (t : TimestampText) : ℕ → ℕ
  | 0 => 0
  | width + 1 => 10 * t.units width + t.fraction.getD width 0

/-- The instant in seconds. -/
def seconds (t : TimestampText) : ℤ := utcSeconds t.year t.month t.day t.hour t.minute t.second - 60 * t.offset

theorem units_lt (t : TimestampText) (width : ℕ) : t.units width < 10 ^ width := by
  induction width with
  | zero => exact Nat.one_pos
  | succ width ih =>
      have hdigit : (t.fraction.getD width 0 : Fin 10).val < 10 := Fin.isLt _
      rw [units, pow_succ]
      omega

/-- Cut off after microseconds or after nanoseconds, the microseconds are the same. -/
theorem units_nine (t : TimestampText) : t.units 9 / 1000 = t.units 6 := by
  have hdigit : ∀ i, (t.fraction.getD i 0 : Fin 10).val < 10 := fun i => Fin.isLt _
  have h₆ := hdigit 6
  have h₇ := hdigit 7
  have h₈ := hdigit 8
  rw [show t.units 9 = 10 * (10 * (10 * t.units 6 + t.fraction.getD 6 0) + t.fraction.getD 7 0)
    + t.fraction.getD 8 0 from rfl]
  omega

/-- The timestamp as pydantic reads it: the offset is kept, the fraction cut off after microseconds. -/
def toDatetime (t : TimestampText) : Datetime where
  year := t.year
  month := t.month
  day := t.day
  hour := t.hour
  minute := t.minute
  second := t.second
  microsecond := t.units 6
  utcoffset := some (60 * t.offset)
  valid := by
    have hfraction := t.units_lt 6
    obtain ⟨h₁, h₂, h₃, h₄, h₅, h₆, h₇, h₈, h₉, hlo, hhi⟩ := t.valid
    refine ⟨h₁, h₂, h₃, h₄, h₅, h₆, h₇, h₈, h₉, hfraction, fun o ho => ?_⟩
    cases ho
    omega

end TimestampText

/-! ## The two decoders -/

/-- `rtace.v1.Transaction`. -/
structure ProtoTransaction where
  eventId : String
  userId : String
  amount : Flt
  merchant : String
  timestamp : Option ProtoTimestamp
  location : String
  latitude : Flt
  longitude : Flt
  ipAddress : String

/-- What the decision service takes from protobuf, and how pydantic and protojson read one document. -/
structure Wire (rt : Runtime) where
  protojson : Json → Option ProtoTransaction
  asTime : ProtoTimestamp → GoTime
  /-- `AsTime` returns the instant in UTC. -/
  asTime_utc : ∀ p, (asTime p).unix = p.seconds ∧ (asTime p).nanosecond = p.nanos ∧ (asTime p).offset = 0
  /-- Texts and numbers are read alike. Of a timestamp, pydantic keeps the fields as they are written, and
  protojson the instant. -/
  agree : ∀ doc event t, rt.validateTx doc = some event → protojson doc = some t →
    event.userId = t.userId ∧ event.amount = t.amount ∧ event.merchant = t.merchant ∧ event.location = t.location ∧
      ∃ text : TimestampText, event.timestamp = text.toDatetime ∧
        ∃ p, t.timestamp = some p ∧ p.seconds = text.seconds ∧ p.nanos = text.units 9

/-- The zero `time.Time`. -/
def zeroTime : GoTime := ⟨1, 1, 1, 0, 0, 0, 0, 0, by decide⟩

/-- The transaction that `Server.decide` builds; `none` is `errInvalid`. -/
def Wire.transaction {rt : Runtime} (w : Wire rt) (t : ProtoTransaction) : Option Transaction :=
  if t.eventId = "" ∨ t.userId = "" then none
  else some
    { eventId := t.eventId
      userId := t.userId
      amount := t.amount
      merchant := t.merchant
      timestamp := (t.timestamp.map w.asTime).getD zeroTime
      location := t.location
      latitude := t.latitude
      longitude := t.longitude
      ipAddress := t.ipAddress }

/-! ## The printed timestamps -/

/-- The civil fields of an instant in UTC are determined by it. -/
theorem utcSeconds_inj {y y' m m' d d' h h' n n' s s' : ℕ} (hy : 1 ≤ y ∧ y ≤ 9999) (hy' : 1 ≤ y' ∧ y' ≤ 9999)
    (hm : 1 ≤ m ∧ m ≤ 12) (hm' : 1 ≤ m' ∧ m' ≤ 12) (hd : 1 ≤ d ∧ d ≤ daysInMonth y m)
    (hd' : 1 ≤ d' ∧ d' ≤ daysInMonth y' m') (ht : h < 24 ∧ n < 60 ∧ s < 60) (ht' : h' < 24 ∧ n' < 60 ∧ s' < 60)
    (heq : utcSeconds y m d h n s = utcSeconds y' m' d' h' n' s') :
    (y = y' ∧ m = m' ∧ d = d') ∧ h = h' ∧ n = n' ∧ s = s' := by
  unfold utcSeconds at heq
  -- the time of day is less than a day
  have hday : ordinal y m d = ordinal y' m' d' := by omega
  have htime : h = h' ∧ n = n' ∧ s = s' := by omega
  obtain ⟨hyear, hmonth, hdate⟩ := date_ordinal hy hm hd
  obtain ⟨hyear', hmonth', hdate'⟩ := date_ordinal hy' hm' hd'
  rw [← hday] at hyear' hmonth' hdate'
  obtain rfl : y = y' := hyear.symm.trans hyear'
  obtain rfl : m = m' := hmonth.symm.trans hmonth'
  exact ⟨⟨rfl, rfl, hdate.symm.trans hdate'⟩, htime⟩

namespace Engine.GoTime

theorem unix_eq (t : GoTime) : t.unix = utcSeconds t.year t.month t.day t.hour t.minute t.second - t.offset := by
  simp only [GoTime.unix, utcSeconds, ordinal]
  push_cast
  ring

/-- The `datetime` that prints as a time in UTC. -/
def toDatetime (t : GoTime) : Datetime where
  year := t.year
  month := t.month
  day := t.day
  hour := t.hour
  minute := t.minute
  second := t.second
  microsecond := t.nanosecond / 1000
  utcoffset := some 0
  valid := by
    obtain ⟨h₁, h₂, h₃, h₄, h₅, h₆, h₇, h₈, h₉, hnano⟩ := t.valid
    refine ⟨h₁, h₂, h₃, h₄, h₅, h₆, h₇, h₈, h₉, by omega, fun o ho => ?_⟩
    cases ho
    decide

/-- `pythonISOFormat` prints a time in UTC as `isoformat()` does. -/
theorem pythonISOFormat_utc {t : GoTime} (h : t.offset = 0) : pythonISOFormat t = t.toDatetime.isoformat := by
  have hoffset : t.offsetText = Datetime.offsetText 0 := by
    rw [GoTime.offsetText, h]
    decide
  rw [pythonISOFormat, hoffset, Datetime.isoformat]
  congr 1

end Engine.GoTime

/-- A written timestamp and the time in UTC at its instant print the same exactly if it is written in UTC. -/
theorem isoformat_eq_iff {text : TimestampText} {t : GoTime} (hunix : t.unix = text.seconds)
    (hnanos : t.nanosecond = text.units 9) (hutc : t.offset = 0) :
    pythonISOFormat t = text.toDatetime.isoformat ↔ text.offset = 0 := by
  rw [GoTime.pythonISOFormat_utc hutc, Datetime.isoformat_injective.eq_iff]
  constructor
  · intro h
    have hoffset : some 0 = some (60 * text.offset) := congrArg Datetime.utcoffset h
    have := Option.some.inj hoffset
    omega
  · intro h
    obtain ⟨h₁, h₂, h₃, h₄, h₅, h₆, h₇, h₈, h₉, -⟩ := text.valid
    obtain ⟨h₁', h₂', h₃', h₄', h₅', h₆', h₇', h₈', h₉', -⟩ := t.valid
    rw [GoTime.unix_eq, hutc, TimestampText.seconds, h] at hunix
    obtain ⟨⟨hy, hm, hd⟩, hh, hn, hs⟩ := utcSeconds_inj ⟨h₁', h₂'⟩ ⟨h₁, h₂⟩ ⟨h₃', h₄'⟩ ⟨h₃, h₄⟩ ⟨h₅', h₆'⟩ ⟨h₅, h₆⟩
      ⟨h₇', h₈', h₉'⟩ ⟨h₇, h₈, h₉⟩ (by simpa using hunix)
    have hmicro : t.nanosecond / 1000 = text.units 6 := by rw [hnanos, text.units_nine]
    simp only [GoTime.toDatetime, TimestampText.toDatetime, hy, hm, hd, hh, hn, hs, hmicro, h, mul_zero]

/-- For a document that both sides accept, the strings differ in the printed timestamps at most. -/
theorem replayPayload_eq_iff {rt : Runtime} (w : Wire rt) {doc : Json} {event : TransactionEvent}
    {t : ProtoTransaction} {tx : Transaction} {q : ℚ} (hevent : rt.validateTx doc = some event)
    (hproto : w.protojson doc = some t) (htx : w.transaction t = some tx) (hfinite : event.amount = .num q) :
    ∃ text : TimestampText, event.timestamp = text.toDatetime ∧
      (tx.replayPayload = event.replayPayload ↔ text.offset = 0) := by
  obtain ⟨huser, hamount, hmerchant, hlocation, text, htext, p, hp, hseconds, hnanos⟩ :=
    w.agree doc event t hevent hproto
  obtain ⟨hunix, hnano, hutc⟩ := w.asTime_utc p
  unfold Wire.transaction at htx
  split at htx
  · cases htx
  cases htx
  refine ⟨text, htext, ?_⟩
  rw [hp, Transaction.replayPayload, TransactionEvent.replayPayload, huser, hmerchant, hlocation, htext,
    ← hamount, hfinite, Option.map_some, Option.getD_some, formatCentsGo, String.append_left_inj,
    String.append_left_inj, String.append_right_inj,
    isoformat_eq_iff (hunix.trans hseconds) (hnano.trans hnanos) hutc]

/-- The two services hash the same string for a document that both accept exactly if its timestamp is
written in UTC. -/
theorem replayPayload_eq_iff_utc {rt : Runtime} (w : Wire rt) {doc : Json} {event : TransactionEvent}
    {t : ProtoTransaction} {tx : Transaction} {q : ℚ} (hevent : rt.validateTx doc = some event)
    (hproto : w.protojson doc = some t) (htx : w.transaction t = some tx) (hfinite : event.amount = .num q) :
    tx.replayPayload = event.replayPayload ↔ event.timestamp.utcoffset = some 0 := by
  obtain ⟨text, htext, hiff⟩ := replayPayload_eq_iff w hevent hproto htx hfinite
  rw [hiff, htext]
  simp [TimestampText.toDatetime]

/-! ## Sample documents -/

/-- `time.Unix(seconds, nanos).UTC()`. -/
def utcTime (p : ProtoTimestamp) : GoTime :=
  let n := (p.seconds / 86400 + 719163).toNat
  let time := (p.seconds % 86400).toNat
  let year := yearOf n
  let month := monthOf year (n - daysBeforeYear year)
  { year, month
    day := n - daysBeforeYear year - daysBeforeMonth year month
    hour := time / 3600
    minute := time / 60 % 60
    second := time % 60
    nanosecond := p.nanos
    offset := 0
    valid := by
      obtain ⟨hlo, hhi, hnanos⟩ := p.valid
      obtain ⟨⟨h₁, h₂, h₃, h₄, h₅, h₆⟩, -⟩ := ordinal_date (n := n) (by omega) (by omega)
      exact ⟨h₁, h₂, h₃, h₄, h₅, h₆, by omega, by omega, by omega, hnanos⟩ }

theorem utcTime_unix (p : ProtoTimestamp) : (utcTime p).unix = p.seconds := by
  obtain ⟨hlo, hhi, -⟩ := p.valid
  obtain ⟨-, hday⟩ := ordinal_date (n := (p.seconds / 86400 + 719163).toNat) (by omega) (by omega)
  rw [GoTime.unix_eq, utcSeconds]
  simp only [utcTime, hday]
  omega

namespace Sample

/-- Midnight of a new year, written in UTC and an hour ahead of it. -/
def newYear : String → Option TimestampText
  | "2024-01-01T00:00:00Z" => some ⟨2024, 1, 1, 0, 0, 0, [], 0, by decide⟩
  | "2024-01-01T01:00:00+01:00" => some ⟨2024, 1, 1, 1, 0, 0, [], 60, by decide⟩
  | _ => none

def timestampOf : Json → Option TimestampText
  | .obj fs => match fs.lookup "timestamp" with
      | some (.str s) => newYear s
      | _ => none
  | _ => none

/-- A request at that time. -/
def request (timestamp : String) : Json :=
  .obj [("event_id", .str "e1"), ("user_id", .str "u1"), ("amount", .num (.num (25 / 2))), ("merchant", .str "shop"),
    ("timestamp", .str timestamp), ("location", .str "NYC"), ("latitude", .num (.num 0)), ("longitude", .num (.num 0))]

/-- Pydantic on the two requests. -/
def requestRuntime : Runtime :=
  { runtime with
    validateTx := fun doc => (timestampOf doc).map fun text => { tx "e1" with timestamp := text.toDatetime } }

/-- Protojson on a timestamp. -/
def protoOf (text : TimestampText) : Option ProtoTimestamp :=
  if h : -62135596800 ≤ text.seconds ∧ text.seconds ≤ 253402300799 then
    some ⟨text.seconds, text.units 9, h.1, h.2, text.units_lt 9⟩
  else none

/-- Protojson on the two requests. -/
def requestWire : Wire requestRuntime where
  protojson doc := (timestampOf doc).bind fun text => (protoOf text).map fun p =>
    { eventId := "e1", userId := "u1", amount := .num (25 / 2), merchant := "shop", timestamp := some p,
      location := "NYC", latitude := .num 0, longitude := .num 0, ipAddress := "" }
  asTime := utcTime
  asTime_utc p := ⟨utcTime_unix p, rfl, rfl⟩
  agree doc event t hevent ht := by
    obtain ⟨text, htext, rfl⟩ := Option.map_eq_some_iff.mp hevent
    obtain ⟨text', htext', ht⟩ := Option.bind_eq_some_iff.mp ht
    obtain rfl : text = text' := Option.some.inj (htext.symm.trans htext')
    obtain ⟨p, hp, rfl⟩ := Option.map_eq_some_iff.mp ht
    refine ⟨rfl, rfl, rfl, rfl, text, rfl, p, rfl, ?_⟩
    unfold protoOf at hp
    split at hp
    · cases hp
      exact ⟨rfl, rfl⟩
    · cases hp

end Sample

section

open Sample

/-- A request in UTC hashes alike. -/
theorem replayPayload_eq_iff_utc_newYear :
    ∃ event t tx, requestRuntime.validateTx (request "2024-01-01T00:00:00Z") = some event ∧
      requestWire.protojson (request "2024-01-01T00:00:00Z") = some t ∧ requestWire.transaction t = some tx ∧
      tx.replayPayload = event.replayPayload := by
  obtain ⟨t, ht⟩ : ∃ t, requestWire.protojson (request "2024-01-01T00:00:00Z") = some t := ⟨_, rfl⟩
  obtain ⟨tx, htx⟩ : ∃ tx, requestWire.transaction t = some tx := by
    cases ht
    exact ⟨_, rfl⟩
  have hevent : requestRuntime.validateTx (request "2024-01-01T00:00:00Z") = some _ := rfl
  exact ⟨_, t, tx, hevent, ht, htx, (replayPayload_eq_iff_utc requestWire hevent ht htx rfl).mpr rfl⟩

/-- The same request, written with the offset of its place, does not. -/
theorem replayPayload_ne_offset :
    ∃ event t tx, requestRuntime.validateTx (request "2024-01-01T01:00:00+01:00") = some event ∧
      requestWire.protojson (request "2024-01-01T01:00:00+01:00") = some t ∧ requestWire.transaction t = some tx ∧
      event.amount = .num (25 / 2) ∧ tx.replayPayload ≠ event.replayPayload := by
  obtain ⟨t, ht⟩ : ∃ t, requestWire.protojson (request "2024-01-01T01:00:00+01:00") = some t := ⟨_, rfl⟩
  obtain ⟨tx, htx⟩ : ∃ tx, requestWire.transaction t = some tx := by
    cases ht
    exact ⟨_, rfl⟩
  have hevent : requestRuntime.validateTx (request "2024-01-01T01:00:00+01:00") = some _ := rfl
  obtain ⟨text, htext, hiff⟩ := replayPayload_eq_iff requestWire hevent ht htx rfl
  refine ⟨_, t, tx, hevent, ht, htx, rfl, fun heq => ?_⟩
  have hoffset : some 3600 = some (60 * text.offset) := congrArg Datetime.utcoffset htext
  rw [hiff.mp heq] at hoffset
  cases hoffset

end

end Rtace
