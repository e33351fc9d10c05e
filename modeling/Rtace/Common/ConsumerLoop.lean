import Rtace.Common.Value
import Rtace.Lib.Transition

/-!
# Consumer loop

`common/consumer_loop.py` with the producer side of `common/kafka_client.py`, run with a producer and a
dead-letter topic. The handler is any program that sends messages, calls `flush_and_verify` and ends by
returning failures or by raising; the broker settles sends at any time, and shutdown may be requested at
any time. One step is one action of the loop, the handler or the broker.
-/

namespace Rtace

open Lib

/-- A Python exception with the texts that a dead letter reports. -/
structure Raised where
  error : PyError
  typeName : String
  text : String

/-- `_is_transient`. -/
def PyError.isTransient : PyError → Bool
  | .redisTransient | .transientError | .kafkaError => true
  | _ => false

/-- A polled record. -/
structure Record where
  topic : String
  partition : ℕ
  offset : ℕ
  key : Option (List UInt8)
  value : Option (List UInt8)
  deriving DecidableEq

/-- A decoded record: topic, partition, offset and value. -/
structure DecodedRecord where
  topic : String
  partition : ℕ
  offset : ℕ
  value : Json

/-- The partition a record is from. -/
def Record.topicPartition (r : Record) : String × ℕ := (r.topic, r.partition)

/-- What `json.loads(raw.decode("utf-8"))` does; `malformed` is a `UnicodeDecodeError` or a
`JSONDecodeError`. -/
inductive Loaded where
  | value (j : Json)
  | malformed (text : String)
  | raises (e : Raised)

/-- The codecs the loop calls. -/
structure Codec where
  loads : List UInt8 → Loaded
  /-- `bytes.decode("utf-8", "replace")`. -/
  decodeReplace : List UInt8 → String

/-- The base64 digit of `n % 64`. -/
def base64Digit (n : ℕ) : Char :=
  "ABCDEFGHIJKLMNOPQRSTUVWXYZabcdefghijklmnopqrstuvwxyz0123456789+/".toList.getD (n % 64) '='

/-- The characters of `base64.b64encode`. -/
def base64Chars : List UInt8 → List Char
  | [] => []
  | [x] => [base64Digit (x.toNat / 4), base64Digit (x.toNat * 16), '=', '=']
  | [x, y] =>
      [base64Digit (x.toNat / 4), base64Digit (x.toNat * 16 + y.toNat / 16), base64Digit (y.toNat * 4), '=']
  | x :: y :: z :: rest =>
      [base64Digit (x.toNat / 4), base64Digit (x.toNat * 16 + y.toNat / 16),
        base64Digit (y.toNat * 4 + z.toNat / 64), base64Digit z.toNat] ++ base64Chars rest

/-- `base64.b64encode(raw).decode("ascii")`. -/
def b64encode (raw : List UInt8) : String := String.ofList (base64Chars raw)

/-- `LoopSettings`, without the pauses of the poll. -/
structure LoopSettings where
  stage : String
  retryInitialSeconds : ℚ := 1 / 2
  retryMaxSeconds : ℚ := 30

/-- `decode_json`: `none` is a tombstone, or the document `null`. -/
def decodeJson (c : Codec) : Option (List UInt8) → Except Raised (Option Json)
  | none | some [] => .ok none
  | some raw =>
      match c.loads raw with
      | .value .null => .ok none
      | .value j => .ok (some j)
      | .malformed text => .error ⟨.valueError, "ValueError", "undecodable record value: " ++ text⟩
      | .raises e => .error e

/-- The records that are handed to the handler, with their values. -/
def decodedOf (c : Codec) (records : List Record) : List (Record × Json) :=
  records.filterMap fun r =>
    match decodeJson c r.value with
    | .ok (some v) => some (r, v)
    | _ => none

/-- `predecode_dlq`: the records whose decoding raised a `ValueError`. -/
def undecodableOf (c : Codec) (records : List Record) : List (Record × Raised) :=
  records.filterMap fun r =>
    match decodeJson c r.value with
    | .error e => some (r, e)
    | _ => none

/-- Decoding a record raises something that the loop does not catch. -/
def Escapes (c : Codec) (r : Record) : Prop :=
  ∃ e, decodeJson c r.value = .error e ∧ e.error ≠ .valueError

/-- The number of tombstones. -/
def skippedOf (c : Codec) (records : List Record) : ℕ :=
  records.countP fun r =>
    match decodeJson c r.value with
    | .ok none => true
    | _ => false

/-- How a call of the handler ends: the permanent failures by index, or an exception. -/
inductive Outcome where
  | returned (failures : ℕ → Option Raised)
  | raised (e : Raised)

/-- The handler raised a transient exception. -/
def Outcome.transient : Outcome → Bool
  | returned _ => false
  | raised e => e.error.isTransient

/-- The records that an attempt dead-letters. -/
def dlqOf (c : Codec) (records : List Record) (o : Outcome) : List (Record × Raised) :=
  undecodableOf c records ++
    match o with
    | .raised e => (decodedOf c records).map fun d => (d.1, e)
    | .returned failures => (decodedOf c records).zipIdx.filterMap fun d => (failures d.2).map fun e => (d.1.1, e)

/-- The records that an attempt counts as processed. -/
def processedOf (c : Codec) (records : List Record) : Outcome → List Record
  | .raised _ => []
  | .returned failures =>
      (decodedOf c records).zipIdx.filterMap fun d => if (failures d.2).isNone then some d.1.1 else none

/-- The payload of a dead letter. -/
structure DeadLetter where
  stage : String
  sourceTopic : String
  partition : ℕ
  offset : ℕ
  key : Option String
  valueBase64 : Option String
  errorType : String
  error : String
  failedAt : String

/-- The payload that `_send_to_dlq` builds. -/
def deadLetterOf (c : Codec) (settings : LoopSettings) (failedAt : String) (r : Record) (e : Raised) :
    DeadLetter where
  stage := settings.stage
  sourceTopic := r.topic
  partition := r.partition
  offset := r.offset
  key := (r.key.filter (· ≠ [])).map c.decodeReplace
  valueBase64 := (r.value.filter (· ≠ [])).map b64encode
  errorType := e.typeName
  error := e.text
  failedAt := failedAt

/-- A message: one of the handler's, or a dead letter. -/
inductive Message (M : Type) where
  | fromHandler (m : M)
  | deadLetter (p : DeadLetter)

/-- The producer. A message is known by its index in the log of all sends; `latch` is whether
`_rtace_last_error` is set. -/
structure Producer (M : Type) where
  log : List (Message M)
  inflight : List ℕ
  acked : List ℕ
  latch : Bool

namespace Producer

variable {M : Type}

/-- `send_message`; if it cannot be enqueued, the error is latched. -/
def send (p : Producer M) (m : Message M) (enqueued : Bool) : Producer M :=
  { p with
    log := p.log ++ [m]
    inflight := if enqueued then p.inflight ++ [p.log.length] else p.inflight
    latch := p.latch || !enqueued }

/-- The broker acknowledges a send. -/
def ack (p : Producer M) (n : ℕ) : Producer M :=
  { p with inflight := p.inflight.filter (· ≠ n), acked := p.acked ++ [n] }

/-- A send fails, and its errback latches the error. -/
def fail (p : Producer M) (n : ℕ) : Producer M :=
  { p with inflight := p.inflight.filter (· ≠ n), latch := true }

/-- `reset_send_errors`, also the end of a `flush_and_verify` that raises. -/
def clear (p : Producer M) : Producer M := { p with latch := false }

end Producer

/-- `consumer_records_total` by result, `processing_errors_total` by kind. `dlq_messages_total` goes with
`dlq`. -/
structure Counters where
  skipped : ℕ := 0
  processed : ℕ := 0
  dlq : ℕ := 0
  transient : ℕ := 0
  permanent : ℕ := 0

/-- Where the loop is. -/
inductive Phase where
  | polling
  | handling (records : List Record)
  | deadLettering (records : List Record) (todo : List (Record × Raised))
  | verifying (records : List Record)
  | backingOff (records : List Record) (slept : Bool)
  | committing (records : List Record)
  | stopped

/-- The state of the loop. `sent` and `outcome` belong to the current attempt; `swallowed` is whether a
`flush_and_verify` of the handler raised in it while one of its messages was not acknowledged. -/
structure Loop (M : Type) where
  phase : Phase
  shutdown : Bool
  delay : ℚ
  producer : Producer M
  sent : List ℕ
  outcome : Option Outcome
  swallowed : Bool
  counters : Counters
  polled : List Record

namespace Loop

variable {M : Type}

/-- A fresh attempt. -/
def begin (s : Loop M) (records : List Record) : Loop M :=
  { s with
    phase := .handling records
    producer := s.producer.clear
    sent := []
    outcome := none
    swallowed := false }

/-- A send of the current attempt. -/
def send (s : Loop M) (m : Message M) (enqueued : Bool) : Loop M :=
  { s with producer := s.producer.send m enqueued, sent := s.sent ++ [s.producer.log.length] }

/-- A message of the current attempt is not acknowledged. -/
def unacked (s : Loop M) : Bool := s.sent.any fun n => n ∉ s.producer.acked

/-- The first half of `_backoff`. -/
def backOff (s : Loop M) (records : List Record) : Loop M :=
  { s with
    phase := .backingOff records false
    counters := { s.counters with transient := s.counters.transient + 1 } }

/-- The handler is done. -/
def finish (s : Loop M) (c : Codec) (records : List Record) (o : Outcome) : Loop M :=
  if o.transient then { s with outcome := some o }.backOff records
  else { s with outcome := some o, phase := .deadLettering records (dlqOf c records o) }

/-- The terminal counters of a delivered batch. -/
def count (s : Loop M) (c : Codec) (records : List Record) (o : Outcome) : Counters :=
  { s.counters with
    processed := s.counters.processed + (processedOf c records o).length
    dlq := s.counters.dlq + (dlqOf c records o).length
    permanent := s.counters.permanent + (dlqOf c records o).length }

end Loop

/-- The offsets of `_commit`: the last record of a partition wins. -/
def commitOffsets (records : List Record) : String × ℕ → Option ℕ :=
  records.foldl (fun offsets r => Function.update offsets r.topicPartition (some (r.offset + 1))) fun _ => none

/-- Each partition's records come in ascending offset order. -/
def Ascending (records : List Record) : Prop :=
  records.Pairwise fun r r' => r.topicPartition = r'.topicPartition → r.offset < r'.offset

/-- What a step does. -/
inductive LoopLabel (M : Type) where
  /-- A poll that failed or returned nothing. -/
  | pollNothing
  | poll (records : List Record)
  /-- Decoding a polled record raises something that the loop does not handle. -/
  | pollEscape (records : List Record)
  /-- So does `_send_to_dlq`. -/
  | dlqEscape
  | handlerSend (m : M) (enqueued : Bool)
  | handlerFlush (raised : Bool)
  | handlerEnd (o : Outcome)
  /-- Nothing to hand over: the handler is not called. -/
  | noHandler
  | sendToDlq (p : DeadLetter) (enqueued : Bool)
  | sentToDlq
  | flushAndVerify (raised : Bool)
  | sleep (seconds : ℚ)
  | retry
  /-- `ShutdownRequested`. -/
  | abandon (records : List Record)
  | commit (records : List Record) (offsets : String × ℕ → Option ℕ) (ok : Bool)
  | stop
  | ack (n : ℕ)
  | fail (n : ℕ)
  | shutdown

/-- One step of `run_consumer_loop`. `flush` returns when nothing is in flight. -/
inductive LoopStep {M : Type} (c : Codec) (settings : LoopSettings) (s : Loop M) :
    LoopLabel M → Loop M → Prop
  | pollNothing (hp : s.phase = .polling) (hs : s.shutdown = false) :
      LoopStep c settings s .pollNothing s
  | poll (records : List Record) (hp : s.phase = .polling) (hs : s.shutdown = false) (hne : records ≠ [])
      (hasc : Ascending (s.polled ++ records)) (hdec : ∀ r ∈ records, ¬ Escapes c r)
      (hwork : decodedOf c records ≠ [] ∨ undecodableOf c records ≠ []) :
      LoopStep c settings s (.poll records)
        { s.begin records with
          polled := s.polled ++ records
          delay := settings.retryInitialSeconds
          counters := { s.counters with skipped := s.counters.skipped + skippedOf c records } }
  | pollSkipped (records : List Record) (hp : s.phase = .polling) (hs : s.shutdown = false)
      (hne : records ≠ []) (hasc : Ascending (s.polled ++ records)) (hdec : decodedOf c records = [])
      (hund : undecodableOf c records = []) :
      LoopStep c settings s (.poll records)
        { s with
          phase := .committing records
          polled := s.polled ++ records
          sent := []
          outcome := none
          swallowed := false
          counters := { s.counters with skipped := s.counters.skipped + skippedOf c records } }
  | pollEscape (records : List Record) (hp : s.phase = .polling) (hs : s.shutdown = false)
      (hasc : Ascending (s.polled ++ records)) (hesc : ∃ r ∈ records, Escapes c r) :
      LoopStep c settings s (.pollEscape records)
        { s with phase := .stopped, polled := s.polled ++ records }
  | stop (hp : s.phase = .polling) (hs : s.shutdown = true) :
      LoopStep c settings s .stop { s with phase := .stopped }
  | handlerSend (records : List Record) (m : M) (enqueued : Bool) (hp : s.phase = .handling records)
      (hdec : decodedOf c records ≠ []) :
      LoopStep c settings s (.handlerSend m enqueued) (s.send (.fromHandler m) enqueued)
  | handlerFlush (records : List Record) (hp : s.phase = .handling records)
      (hdec : decodedOf c records ≠ []) (hflush : s.producer.inflight = []) (hlatch : s.producer.latch = false) :
      LoopStep c settings s (.handlerFlush false) s
  | handlerFlushRaised (records : List Record) (hp : s.phase = .handling records)
      (hdec : decodedOf c records ≠ []) (hflush : s.producer.inflight = []) (hlatch : s.producer.latch = true) :
      LoopStep c settings s (.handlerFlush true)
        { s with producer := s.producer.clear, swallowed := s.swallowed || s.unacked }
  | handlerEnd (records : List Record) (o : Outcome) (hp : s.phase = .handling records)
      (hdec : decodedOf c records ≠ []) :
      LoopStep c settings s (.handlerEnd o) (s.finish c records o)
  | noHandler (records : List Record) (hp : s.phase = .handling records) (hdec : decodedOf c records = []) :
      LoopStep c settings s .noHandler (s.finish c records (.returned fun _ => none))
  | sendToDlq (records : List Record) (r : Record) (e : Raised) (todo : List (Record × Raised))
      (failedAt : String) (enqueued : Bool) (hp : s.phase = .deadLettering records ((r, e) :: todo)) :
      LoopStep c settings s (.sendToDlq (deadLetterOf c settings failedAt r e) enqueued)
        { s.send (.deadLetter (deadLetterOf c settings failedAt r e)) enqueued with
          phase := .deadLettering records todo }
  | dlqEscape (records : List Record) (todo : List (Record × Raised))
      (hp : s.phase = .deadLettering records todo) (htodo : todo ≠ []) :
      LoopStep c settings s .dlqEscape { s with phase := .stopped }
  | sentToDlq (records : List Record) (hp : s.phase = .deadLettering records []) :
      LoopStep c settings s .sentToDlq { s with phase := .verifying records }
  | verified (records : List Record) (o : Outcome) (hp : s.phase = .verifying records)
      (ho : s.outcome = some o) (hflush : s.producer.inflight = []) (hlatch : s.producer.latch = false) :
      LoopStep c settings s (.flushAndVerify false)
        { s with phase := .committing records, counters := s.count c records o }
  | notVerified (records : List Record) (hp : s.phase = .verifying records)
      (hflush : s.producer.inflight = []) (hlatch : s.producer.latch = true) :
      LoopStep c settings s (.flushAndVerify true)
        ({ s with producer := s.producer.clear }.backOff records)
  | sleep (records : List Record) (hp : s.phase = .backingOff records false) (hs : s.shutdown = false) :
      LoopStep c settings s (.sleep s.delay) { s with phase := .backingOff records true }
  | retry (records : List Record) (hp : s.phase = .backingOff records true) (hs : s.shutdown = false) :
      LoopStep c settings s .retry { s.begin records with delay := min (s.delay * 2) settings.retryMaxSeconds }
  | abandon (records : List Record) (slept : Bool) (hp : s.phase = .backingOff records slept)
      (hs : s.shutdown = true) :
      LoopStep c settings s (.abandon records) { s with phase := .stopped }
  | commit (records : List Record) (ok : Bool) (hp : s.phase = .committing records) :
      LoopStep c settings s (.commit records (commitOffsets records) ok) { s with phase := .polling }
  | ack (n : ℕ) (hn : n ∈ s.producer.inflight) :
      LoopStep c settings s (.ack n) { s with producer := s.producer.ack n }
  | fail (n : ℕ) (hn : n ∈ s.producer.inflight) :
      LoopStep c settings s (.fail n) { s with producer := s.producer.fail n }
  | shutdown : LoopStep c settings s .shutdown { s with shutdown := true }

end Rtace
