import Rtace.Decision.Document
import Rtace.Decision.Parity

/-!
# The event time of the two services

`Decide` computes the event time from `UnixNano`, a signed 64-bit count of nanoseconds, and takes the
current time for the zero `time.Time`; the detection engine calls `timestamp()`, which knows every
instant. The count holds about the years 1678 to 2262. Inside them the two times are the same. Outside
they never are: the count wraps, and the zero time lies outside as well.
-/

namespace Rtace

open Engine

/-- Nanoseconds since the Unix epoch. -/
def ProtoTimestamp.nanoseconds (p : ProtoTimestamp) : ℤ := p.seconds * 1000000000 + p.nanos

/-- The nanoseconds fit in a signed 64-bit integer: from 1677-09-21T00:12:43.145224192Z to
2262-04-11T23:47:16.854775807Z. -/
def ProtoTimestamp.Countable (p : ProtoTimestamp) : Prop := -2 ^ 63 ≤ p.nanoseconds ∧ p.nanoseconds < 2 ^ 63

/-- A protobuf timestamp and an aware `datetime` represent the same instant. -/
def SameInstant (p : ProtoTimestamp) (t : Datetime) : Prop :=
  ∃ o, t.utcoffset = some o ∧ t.civilSeconds - o = p.seconds + (p.nanos : ℚ) / 1000000000

/-- Both services give `tx_check` the same event time and the same burst cutoff. -/
def SameEventTime (rt : Runtime) (gcfg : Engine.Config) (cfg : RedisConfig) (tx : Transaction)
    (event : TransactionEvent) (ref : String) : Prop :=
  ∃ nowTs, event.timestamp.timestamp rt = .ok nowTs ∧
    (Engine.txArgs gcfg tx).nowTs = (txArgs cfg event ref nowTs).nowTs ∧
    (Engine.txArgs gcfg tx).burstCutoff = (txArgs cfg event ref nowTs).burstCutoff

/-! ## The detection engine -/

theorem Datetime.civilSeconds_eq (t : Datetime) : t.civilSeconds =
    utcSeconds t.year t.month t.day t.hour t.minute t.second + (t.microsecond : ℚ) / 1000000 := by
  simp only [Datetime.civilSeconds, utcSeconds, ordinal]
  push_cast
  ring

/-- Every instant with whole microseconds that protobuf represents, an aware `datetime` represents too. -/
theorem sameInstant_utcTime {p : ProtoTimestamp} (hmicro : p.nanos % 1000 = 0) :
    SameInstant p (utcTime p).toDatetime := by
  obtain ⟨micros, hmicros⟩ : ∃ n, p.nanos = 1000 * n := ⟨p.nanos / 1000, by omega⟩
  have hunix := utcTime_unix p
  rw [GoTime.unix_eq] at hunix
  refine ⟨0, rfl, ?_⟩
  rw [Datetime.civilSeconds_eq, ← hunix]
  simp only [GoTime.toDatetime, utcTime, hmicros, Nat.mul_div_cancel_left _ (show 0 < 1000 by decide)]
  push_cast
  ring

/-- `timestamp()` is the instant, in exact arithmetic. -/
theorem SameInstant.timestamp {p : ProtoTimestamp} {t : Datetime} (h : SameInstant p t) (rt : Runtime) :
    t.timestamp rt = .ok ((p.nanoseconds : ℚ) / 1000000000) := by
  obtain ⟨o, hoffset, hinstant⟩ := h
  have hseconds : (p.nanoseconds : ℚ) / 1000000000 = p.seconds + (p.nanos : ℚ) / 1000000000 := by
    rw [ProtoTimestamp.nanoseconds]
    push_cast
    ring
  simp only [Datetime.timestamp, hoffset, hinstant, hseconds]

/-- With one window, the cutoffs agree exactly if the event times do. -/
theorem sameEventTime_iff {rt : Runtime} {gcfg : Engine.Config} {cfg : RedisConfig} {tx : Transaction}
    {event : TransactionEvent} {ref : String} {p : ProtoTimestamp} (hsame : SameInstant p event.timestamp)
    (hwindow : gcfg.burstWindow = cfg.burstWindowSeconds) :
    SameEventTime rt gcfg cfg tx event ref ↔ tx.timestamp.unixNano = p.nanoseconds := by
  have hnow : tx.nowTs = (p.nanoseconds : ℚ) / 1000000000 ↔ tx.timestamp.unixNano = p.nanoseconds := by
    rw [Transaction.nowTs, div_left_inj' (by norm_num), Int.cast_inj]
  rw [← hnow]
  constructor
  · rintro ⟨nowTs, hts, htime, -⟩
    rw [hsame.timestamp rt] at hts
    cases hts
    exact htime
  · intro htime
    refine ⟨_, hsame.timestamp rt, htime, ?_⟩
    simp only [Engine.txArgs, txArgs, htime, hwindow]

/-! ## The decision service -/

namespace Engine.GoTime

/-- `UnixNano` is a signed 64-bit integer. -/
theorem unixNano_range (t : GoTime) : -2 ^ 63 ≤ t.unixNano ∧ t.unixNano < 2 ^ 63 := by
  have hlow := Int.le_bmod (x := t.unix * 1000000000 + t.nanosecond) (m := 2 ^ 64) (by decide)
  have hhigh := Int.bmod_lt (x := t.unix * 1000000000 + t.nanosecond) (m := 2 ^ 64) (by decide)
  rw [unixNano]
  omega

/-- It is the exact count if that fits. -/
theorem unixNano_eq {t : GoTime} {n : ℤ} (hn : t.unix * 1000000000 + t.nanosecond = n)
    (hrange : -2 ^ 63 ≤ n ∧ n < 2 ^ 63) : t.unixNano = n := by
  rw [unixNano, hn, Int.bmod_eq_iff (by decide)]
  refine ⟨?_, ?_, ?_⟩
  · exact hrange.1
  · exact hrange.2
  · simp

end Engine.GoTime

/-- `Server.decide` hands on the instant of the request. -/
theorem Wire.transaction_instant {rt : Runtime} (w : Wire rt) {t : ProtoTransaction} {p : ProtoTimestamp}
    (hp : t.timestamp = some p) {tx : Transaction} (htx : w.transaction t = some tx) :
    tx.timestamp.unix = p.seconds ∧ tx.timestamp.nanosecond = p.nanos := by
  obtain ⟨hunix, hnanos, -⟩ := w.asTime_utc p
  unfold Wire.transaction at htx
  split at htx
  · cases htx
  · cases htx
    simp only [hp, Option.map_some, Option.getD_some]
    exact ⟨hunix, hnanos⟩

/-- The event time of `Decide` is the instant exactly if its nanoseconds fit. -/
theorem unixNano_stamped_iff {tx : Transaction} {p : ProtoTimestamp} (hunix : tx.timestamp.unix = p.seconds)
    (hnanos : tx.timestamp.nanosecond = p.nanos) (call : Call) :
    (tx.stamped call).timestamp.unixNano = p.nanoseconds ↔ p.Countable := by
  constructor
  · -- also the current time, taken for a zero time, has a count that fits
    intro h
    rw [ProtoTimestamp.Countable, ← h]
    exact GoTime.unixNano_range _
  · intro hrange
    have hset : ¬ tx.timestamp.isZero := by
      intro hzero
      simp only [GoTime.isZero, decide_eq_true_eq, hunix, hnanos] at hzero
      obtain ⟨hseconds, hzero⟩ := hzero
      have hlow := hrange.1
      rw [ProtoTimestamp.nanoseconds, hseconds, hzero] at hlow
      omega
    rw [Transaction.stamped, if_neg hset]
    refine GoTime.unixNano_eq ?_ hrange
    rw [hunix, hnanos, ProtoTimestamp.nanoseconds]

/-! ## Both -/

/-- For an instant that both services receive, they pass the same event time and burst cutoff exactly if
its nanoseconds fit in 64 bits. -/
theorem eventTime_agrees_iff {rt : Runtime} (w : Wire rt) {gcfg : Engine.Config} {cfg : RedisConfig}
    (hwindow : gcfg.burstWindow = cfg.burstWindowSeconds) {t : ProtoTransaction} {p : ProtoTimestamp}
    (hp : t.timestamp = some p) {tx : Transaction} (htx : w.transaction t = some tx) {event : TransactionEvent}
    (hsame : SameInstant p event.timestamp) (call : Call) (ref : String) :
    SameEventTime rt gcfg cfg (tx.stamped call) event ref ↔ p.Countable := by
  obtain ⟨hunix, hnanos⟩ := w.transaction_instant hp htx
  rw [sameEventTime_iff hsame hwindow, unixNano_stamped_iff hunix hnanos call]

namespace Sample

/-- A request with a given instant, to the decision service. -/
def protoAt (p : ProtoTimestamp) : ProtoTransaction where
  eventId := "e1"
  userId := "u1"
  amount := .num (25 / 2)
  merchant := "shop"
  timestamp := some p
  location := "NYC"
  latitude := .num 0
  longitude := .num 0
  ipAddress := ""

/-- The same request on the topic, with the instant written in UTC. -/
def eventAt (p : ProtoTimestamp) : TransactionEvent := { tx "e1" with timestamp := (utcTime p).toDatetime }

/-- 2024-01-01T00:00:00Z. -/
def year2024 : ProtoTimestamp := ⟨1704067200, 0, by decide⟩

/-- 2300-01-01T00:00:00Z. -/
def year2300 : ProtoTimestamp := ⟨10413792000, 0, by decide⟩

theorem transaction_protoAt (p : ProtoTimestamp) : ∃ tx, requestWire.transaction (protoAt p) = some tx := ⟨_, rfl⟩

end Sample

section

open Sample

/-- Both services date a request of 2024 alike. -/
theorem eventTime_agrees_iff_2024 :
    ∃ tx, requestWire.transaction (protoAt year2024) = some tx ∧
      SameInstant year2024 (eventAt year2024).timestamp ∧ year2024.Countable ∧
      SameEventTime requestRuntime {} {} (tx.stamped call) (eventAt year2024) "tx-events:0:0" := by
  obtain ⟨tx, htx⟩ := transaction_protoAt year2024
  have hsame : SameInstant year2024 (eventAt year2024).timestamp := sameInstant_utcTime rfl
  have hcount : year2024.Countable := ⟨by decide, by decide⟩
  exact ⟨tx, htx, hsame, hcount, (eventTime_agrees_iff requestWire rfl rfl htx hsame call _).mpr hcount⟩

/-- A request of 2300 is dated 1715 by the decision service: the count of nanoseconds has wrapped. -/
theorem year2300_wraps :
    ∃ tx, requestWire.transaction (protoAt year2300) = some tx ∧
      SameInstant year2300 (eventAt year2300).timestamp ∧
      (eventAt year2300).timestamp.timestamp requestRuntime = .ok 10413792000 ∧
      (Engine.txArgs {} (tx.stamped call)).nowTs = -8032952073709551616 / 1000000000 ∧
      ¬ SameEventTime requestRuntime {} {} (tx.stamped call) (eventAt year2300) "tx-events:0:0" := by
  obtain ⟨tx, htx⟩ := transaction_protoAt year2300
  obtain ⟨hunix, hnanos⟩ := requestWire.transaction_instant rfl htx
  have hsame : SameInstant year2300 (eventAt year2300).timestamp := sameInstant_utcTime rfl
  have hset : ¬ tx.timestamp.isZero := by
    simp only [GoTime.isZero, hunix, hnanos]
    decide
  have hcount : tx.timestamp.unixNano = -8032952073709551616 := by
    rw [GoTime.unixNano, hunix, hnanos]
    decide
  have hts := hsame.timestamp requestRuntime
  refine ⟨tx, htx, hsame, ?_, ?_, ?_⟩
  · rw [hts]
    norm_num [ProtoTimestamp.nanoseconds, year2300]
  · rw [Transaction.stamped, if_neg hset, Engine.txArgs, Transaction.nowTs, hcount]
    norm_num
  · rw [sameEventTime_iff hsame rfl, Transaction.stamped, if_neg hset, hcount]
    decide

end

end Rtace
