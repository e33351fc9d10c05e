import Mathlib.Data.Int.Lemmas
import Rtace.Detection.Detectors

/-!
# The decision service

`decision-service/internal/decision/engine.go`: `Decide` looks up the enforcement rules, runs the shared
Lua check under the delivery reference `decision:{event_id}`, and stores its verdict for retries and for
the detection engine. Each round trip to Redis is a definition of its own.
-/

namespace Rtace.Engine

open Lib Redis

/-- A Go `time.Time` seen through its accessors: civil fields and zone offset in seconds. -/
structure GoTime where
  year : ℕ
  month : ℕ
  day : ℕ
  hour : ℕ
  minute : ℕ
  second : ℕ
  nanosecond : ℕ
  offset : ℤ
  valid : 1 ≤ year ∧ year ≤ 9999 ∧ 1 ≤ month ∧ month ≤ 12 ∧ 1 ≤ day ∧ day ≤ daysInMonth year month ∧
    hour < 24 ∧ minute < 60 ∧ second < 60 ∧ nanosecond < 1000000000

namespace GoTime

/-- Seconds since the Unix epoch. -/
def unix (t : GoTime) : ℤ :=
  let days : ℤ := daysBeforeYear t.year + daysBeforeMonth t.year t.month + t.day - 719163
  days * 86400 + (t.hour * 3600 + t.minute * 60 + t.second : ℕ) - t.offset

/-- `UnixNano`, a signed 64-bit count. -/
def unixNano (t : GoTime) : ℤ := (t.unix * 1000000000 + t.nanosecond).bmod (2 ^ 64)

/-- `IsZero`: January 1 of year 1, 00:00:00 UTC. -/
def isZero (t : GoTime) : Bool := t.unix = -62135596800 ∧ t.nanosecond = 0

/-- The layout `-07:00`: whole minutes, truncated towards zero. -/
def offsetText (t : GoTime) : String :=
  let zone := t.offset.tdiv 60
  (if zone < 0 then "-" else "+") ++ padZero 2 (zone.natAbs / 60) ++ ":" ++ padZero 2 (zone.natAbs % 60)

end GoTime

/-- `pythonISOFormat`. -/
def pythonISOFormat (t : GoTime) : String :=
  padZero 4 t.year ++ "-" ++ padZero 2 t.month ++ "-" ++ padZero 2 t.day ++ "T" ++
    padZero 2 t.hour ++ ":" ++ padZero 2 t.minute ++ ":" ++ padZero 2 t.second ++
    (if t.nanosecond / 1000 = 0 then "" else "." ++ padZero 6 (t.nanosecond / 1000)) ++ t.offsetText

/-- Go's `%.2f`: as Python's on numbers, with its own spelling of the non-numbers. -/
def formatCentsGo : Flt → String
  | .num q => formatCents (.num q)
  | .nan => "NaN"
  | .inf neg => if neg then "-Inf" else "+Inf"

/-- `Config`; durations are in seconds. -/
structure Config where
  replayTtl : ℕ := 86400
  burstWindow : ℤ := 60
  burstThreshold : ℤ := 20
  burstKeyTtl : ℕ := 120
  sessionTtl : ℕ := 604800
  maxVelocityKmh : ℚ := 900
  resultTtl : ℤ := 86400
  denyScore : ℤ := 80
  challengeScore : ℤ := 40

/-- `Transaction`. -/
structure Transaction where
  eventId : String
  userId : String
  amount : Flt
  merchant : String
  timestamp : GoTime
  location : String
  latitude : Flt
  longitude : Flt
  ipAddress : String

/-- The verdicts. -/
inductive Verdict where
  | allow
  | challenge
  | deny
  deriving DecidableEq, Repr

def Verdict.text : Verdict → String
  | allow => "ALLOW"
  | challenge => "CHALLENGE"
  | deny => "DENY"

/-- `Reason`; the details in the key order `json.Marshal` gives a map. -/
structure Reason where
  type : String
  score : ℤ
  details : Dict

/-- `Decision`; `decidedAt` is the RFC 3339 text of the time. -/
structure Decision where
  decisionId : String
  verdict : Verdict
  score : ℤ
  reasons : List Reason
  cached : Bool
  decidedAt : String
  source : String

/-- What a call takes from outside: `uuid.NewString()`, `time.Now()` as a time and as RFC 3339 text. -/
structure Call where
  uuid : String
  clock : GoTime
  decidedAt : String

/-- The errors of `Decide`, by the step that fails. -/
inductive DecideError where
  | missingIds
  | enforcementLookup
  | txCheckLua
  | storeDecision
  deriving DecidableEq, Repr

def scoreReplay : ℤ := 100
def scoreBurst : ℤ := 80
def scoreGeo : ℤ := 70
def scoreQuarantine : ℤ := 100
def scoreIPBlocked : ℤ := 100

/-- The string `ReplayHash` hashes. -/
def Transaction.replayPayload (tx : Transaction) : String :=
  tx.userId ++ "|" ++ formatCentsGo tx.amount ++ "|" ++ tx.merchant ++ "|" ++
    pythonISOFormat tx.timestamp ++ "|" ++ tx.location

/-- `ReplayHash`. -/
def Transaction.replayHash (rt : Runtime) (tx : Transaction) : String := rt.sha256 tx.replayPayload

/-- A transaction without a timestamp is scored at the current time. -/
def Transaction.stamped (tx : Transaction) (call : Call) : Transaction :=
  if tx.timestamp.isZero then { tx with timestamp := call.clock } else tx

/-- `nowTS`. -/
def Transaction.nowTs (tx : Transaction) : ℚ := (tx.timestamp.unixNano : ℚ) / 1000000000

/-! ## The rules -/

/-- What the enforcement lookup found. -/
structure ActiveRules where
  quarantined : Bool
  stepUp : Bool
  ipBlocked : Bool

/-- Step 1: the pipelined `EXISTS`. -/
def enforcementLookup (tx : Transaction) : Cmd ActiveRules := do
  let quarantined ← existsKey (quarantineKey tx.userId)
  let stepUp ← existsKey (stepUpKey tx.userId)
  let ipBlocked ← if tx.ipAddress = "" then pure false else existsKey (ipBlockKey tx.ipAddress)
  pure ⟨quarantined, stepUp, ipBlocked⟩

/-- The reason and verdict with which an active rule refuses or challenges a transaction outright. -/
def refusal (tx : Transaction) (rules : ActiveRules) : Option (Reason × Verdict) :=
  if rules.quarantined then some (⟨"user_quarantined", scoreQuarantine, []⟩, .deny)
  else if rules.ipBlocked then
    some (⟨"ip_blocked", scoreIPBlocked, [("ip_address", .str tx.ipAddress)]⟩, .deny)
  else if rules.stepUp then some (⟨"step_up_pending", scoreGeo, []⟩, .challenge)
  else none

/-! ## The shared check -/

def txKeys (rt : Runtime) (tx : Transaction) : TxKeys :=
  ⟨replayKey (tx.replayHash rt), burstKey tx.userId, sessionKey tx.userId⟩

def txArgs (cfg : Config) (tx : Transaction) : TxArgs where
  recordRef := decisionRef tx.eventId
  replayTtl := cfg.replayTtl
  eventId := tx.eventId
  nowTs := tx.nowTs
  burstCutoff := tx.nowTs - cfg.burstWindow
  burstKeyTtl := cfg.burstKeyTtl
  lat := tx.latitude
  lon := tx.longitude
  sessionTtl := cfg.sessionTtl
  maxVelocity := cfg.maxVelocityKmh
  minTime := minTimeSeconds

/-- Step 2: the script call. -/
def runTxCheck (rt : Runtime) (cfg : Config) (now : ℕ) (tx : Transaction) : Cmd TxReply :=
  txCheck rt now (txKeys rt tx) (txArgs cfg tx)

/-- The number `strconv.ParseFloat` reads from an optional coordinate, 0 if there is none. -/
def parseCoordinate (x : Option Flt) : Flt := x.getD (.num 0)

/-- Step 3: the reasons in the script's reply. -/
def interpret (cfg : Config) (tx : Transaction) (r : TxReply) : List Reason :=
  (if r.replayStatus = .replay then
    [⟨"replay_attack", scoreReplay, [("first_seen_record", r.storedRef.toJson)]⟩] else []) ++
  (if (r.burstCount : ℤ) > cfg.burstThreshold then
    [⟨"fraud_burst", scoreBurst,
      [("count_in_window", .num (.num r.burstCount)), ("threshold", .num (.num cfg.burstThreshold)),
        ("window_seconds", .num (.num cfg.burstWindow))]⟩] else []) ++
  (if r.geoStatus = .anomaly then
    [⟨"geo_velocity_anomaly", scoreGeo,
      [("distance_km", .num r.distance), ("elapsed_seconds", .num r.elapsed),
        ("from_location", .arr [.num (parseCoordinate r.prevLat), .num (parseCoordinate r.prevLon)]),
        ("threshold_kmh", .num (.num cfg.maxVelocityKmh)),
        ("to_location", .arr [.num tx.latitude, .num tx.longitude]),
        ("velocity_kmh", .num r.velocity)]⟩] else [])

/-- `verdict`: the strongest signal plus 10 per additional one, capped at 100. -/
def verdict (cfg : Config) (reasons : List Reason) : ℤ × Verdict :=
  if reasons.isEmpty then (0, .allow)
  else
    let maxScore := reasons.foldl (fun m r => if r.score > m then r.score else m) 0
    let score := min 100 (maxScore + 10 * (reasons.length - 1 : ℕ))
    if score ≥ cfg.denyScore then (score, .deny)
    else if score ≥ cfg.challengeScore then (score, .challenge)
    else (score, .allow)

/-- The decision of a call with given reasons, score and verdict. -/
def newDecision (call : Call) (reasons : List Reason) (score : ℤ) (v : Verdict) : Decision where
  decisionId := "dec-" ++ call.uuid
  verdict := v
  score := score
  reasons := reasons
  cached := false
  decidedAt := call.decidedAt
  source := "decision-service"

/-- The decision a script reply leads to. -/
def scored (cfg : Config) (call : Call) (tx : Transaction) (r : TxReply) : Decision :=
  let reasons := interpret cfg tx r
  newDecision call reasons (verdict cfg reasons).1 (verdict cfg reasons).2

/-! ## The stored document -/

mutual
/-- Every number of the document is finite, so `json.Marshal` accepts it. -/
def finiteJson : Json → Bool
  | .num (.num _) => true
  | .num _ => false
  | .arr xs => finiteList xs
  | .obj fs => finiteFields fs
  | _ => true

def finiteList : List Json → Bool
  | [] => true
  | x :: xs => finiteJson x && finiteList xs

def finiteFields : List (String × Json) → Bool
  | [] => true
  | f :: fs => finiteField f && finiteFields fs

def finiteField : String × Json → Bool
  | (_, v) => finiteJson v
end

def Reason.toJson (r : Reason) : Json :=
  .obj [("type", .str r.type), ("score", .num (.num r.score)), ("details", .obj r.details)]

def Decision.toJson (d : Decision) : Json :=
  .obj [("decision_id", .str d.decisionId), ("verdict", .str d.verdict.text),
    ("score", .num (.num d.score)), ("reasons", .arr (d.reasons.map Reason.toJson)),
    ("cached", .bool d.cached), ("decided_at", .str d.decidedAt), ("source", .str d.source)]

/-- `json.Marshal`. -/
def marshal (d : Decision) : Option Json := if finiteJson d.toJson then some d.toJson else none

/-- A field of an object. -/
def field (j : Json) (key : String) : Option Json :=
  match j with
  | .obj fs => fs.lookup key
  | _ => none

def asString : Json → Option String
  | .str s => some s
  | _ => none

def asInt : Json → Option ℤ
  | .num (.num q) => if q.den = 1 then some q.num else none
  | _ => none

def asBool : Json → Option Bool
  | .bool b => some b
  | _ => none

def asDict : Json → Option Dict
  | .obj fs => some fs
  | _ => none

def asVerdict : Json → Option Verdict
  | .str "ALLOW" => some .allow
  | .str "CHALLENGE" => some .challenge
  | .str "DENY" => some .deny
  | _ => none

def asReason (j : Json) : Option Reason := do
  let type ← (field j "type").bind asString
  let score ← (field j "score").bind asInt
  let details ← (field j "details").bind asDict
  pure ⟨type, score, details⟩

def asReasons : Json → Option (List Reason)
  | .arr xs => xs.mapM asReason
  | _ => none

/-- `json.Unmarshal` into a `Decision`, for documents that `json.Marshal` wrote. -/
def unmarshal (j : Json) : Option Decision := do
  let decisionId ← (field j "decision_id").bind asString
  let verdict ← (field j "verdict").bind asVerdict
  let score ← (field j "score").bind asInt
  let reasons ← (field j "reasons").bind asReasons
  let cached ← (field j "cached").bind asBool
  let decidedAt ← (field j "decided_at").bind asString
  let source ← (field j "source").bind asString
  pure ⟨decisionId, verdict, score, reasons, cached, decidedAt, source⟩

/-- The read of a stored verdict after a `redelivery` status. -/
def cachedDecision (tx : Transaction) : Cmd (Option Decision) := do
  let found ← get (resultKey tx.eventId)
  match found with
  | some (.json j) => pure ((unmarshal j).map fun d => { d with cached := true })
  | _ => pure none

/-- Step 4: the write of the decision. `Set` with a lifetime that is not positive sets no deadline. -/
def storeDecision (cfg : Config) (now : ℕ) (tx : Transaction) (d : Decision) : Cmd Unit :=
  match marshal d with
  | none => pure ()
  | some doc => atKey (resultKey tx.eventId) fun _ =>
      ((), some ⟨.str (.json doc), if 0 < cfg.resultTtl then deadline now cfg.resultTtl.toNat else none⟩)

/-- `Decide`, when every Redis command succeeds. -/
def decide (rt : Runtime) (cfg : Config) (now : ℕ) (call : Call) (tx : Transaction) :
    Cmd (Except DecideError Decision) := do
  if tx.eventId = "" ∨ tx.userId = "" then
    pure (.error .missingIds)
  else do
    let tx := tx.stamped call
    let rules ← enforcementLookup tx
    match refusal tx rules with
    | some (reason, v) => pure (.ok (newDecision call [reason] reason.score v))
    | none => do
        let r ← runTxCheck rt cfg now tx
        let cached ← if r.replayStatus = .redelivery then cachedDecision tx else pure none
        match cached with
        | some prev => pure (.ok prev)
        | none => do
            let d := scored cfg call tx r
            storeDecision cfg now tx d
            pure (.ok d)

/-! ## What `Decide` does -/

/-- The rules in force for a transaction. -/
def activeRules (db : Db) (tx : Transaction) : ActiveRules where
  quarantined := (db (quarantineKey tx.userId)).isSome
  stepUp := (db (stepUpKey tx.userId)).isSome
  ipBlocked := tx.ipAddress ≠ "" ∧ (db (ipBlockKey tx.ipAddress)).isSome

theorem enforcementLookup_apply (tx : Transaction) (db : Db) :
    enforcementLookup tx db = (activeRules db tx, db) := by
  by_cases h : tx.ipAddress = ""
  · simp only [enforcementLookup, bind_apply, existsKey_apply, h, if_true, pure_apply, activeRules,
      ne_eq, not_true_eq_false, false_and, decide_false]
  · simp only [enforcementLookup, bind_apply, existsKey_apply, h, if_false, pure_apply, activeRules,
      ne_eq, not_false_eq_true, true_and, Bool.decide_eq_true]

/-- A transaction without an event id or a user id is refused before Redis is asked. -/
theorem decide_missingIds {rt : Runtime} {cfg : Config} {now : ℕ} {call : Call} {tx : Transaction}
    {db : Db} (h : tx.eventId = "" ∨ tx.userId = "") :
    decide rt cfg now call tx db = (.error .missingIds, db) := by
  simp only [decide, if_pos h, pure_apply]

/-- An active rule answers without advancing any state. -/
theorem decide_refused {rt : Runtime} {cfg : Config} {now : ℕ} {call : Call} {tx : Transaction}
    {db : Db} (h : ¬ (tx.eventId = "" ∨ tx.userId = "")) {reason : Reason} {v : Verdict}
    (hrule : refusal (tx.stamped call) (activeRules db (tx.stamped call)) = some (reason, v)) :
    decide rt cfg now call tx db = (.ok (newDecision call [reason] reason.score v), db) := by
  simp only [decide, if_neg h, bind_apply, enforcementLookup_apply, hrule, pure_apply]

/-- Without a rule, a delivery that is no redelivery is scored and its decision stored. -/
theorem decide_scored {rt : Runtime} {cfg : Config} {now : ℕ} {call : Call} {tx : Transaction}
    {db : Db} (h : ¬ (tx.eventId = "" ∨ tx.userId = ""))
    (hrule : refusal (tx.stamped call) (activeRules db (tx.stamped call)) = none)
    (hfirst : (runTxCheck rt cfg now (tx.stamped call) db).1.replayStatus ≠ .redelivery) :
    decide rt cfg now call tx db =
      let out := runTxCheck rt cfg now (tx.stamped call) db
      let d := scored cfg call (tx.stamped call) out.1
      (.ok d, (storeDecision cfg now (tx.stamped call) d out.2).2) := by
  simp only [decide, if_neg h, bind_apply, enforcementLookup_apply, hrule, if_neg hfirst, pure_apply]

theorem footprint_storeDecision (cfg : Config) (now : ℕ) (tx : Transaction) (d : Decision) :
    Footprint {resultKey tx.eventId} (storeDecision cfg now tx d) := by
  unfold storeDecision
  split
  · exact .pure _ _
  · exact .atKey _ _

theorem storeDecision_marshal {cfg : Config} {now : ℕ} {tx : Transaction} {d : Decision} {doc : Json}
    (h : marshal d = some doc) (db : Db) :
    payload ((storeDecision cfg now tx d db).2 (resultKey tx.eventId)) = some (.json doc) := by
  simp only [storeDecision, h, atKey, Function.update_self, payload_str]

/-- Reading the stored verdict changes nothing. -/
theorem cachedDecision_none {tx : Transaction} {db : Db} (h : payload (db (resultKey tx.eventId)) = none) :
    cachedDecision tx db = (none, db) := by
  simp only [cachedDecision, bind_apply, get_apply, h, pure_apply]

theorem cachedDecision_json {tx : Transaction} {db : Db} {j : Json}
    (h : payload (db (resultKey tx.eventId)) = some (.json j)) :
    cachedDecision tx db = ((unmarshal j).map fun d => { d with cached := true }, db) := by
  simp only [cachedDecision, bind_apply, get_apply, h, pure_apply]

theorem cachedDecision_snd (tx : Transaction) (db : Db) : (cachedDecision tx db).2 = db := by
  simp only [cachedDecision, bind_apply, get_apply]
  rcases payload (db (resultKey tx.eventId)) with _ | _ | j
  · rfl
  · rfl
  · rfl

/-- Without a rule, a redelivery answers with the stored verdict, or is scored again if there is none. -/
theorem decide_redelivered {rt : Runtime} {cfg : Config} {now : ℕ} {call : Call} {tx : Transaction}
    {db : Db} (h : ¬ (tx.eventId = "" ∨ tx.userId = ""))
    (hrule : refusal (tx.stamped call) (activeRules db (tx.stamped call)) = none)
    (hagain : (runTxCheck rt cfg now (tx.stamped call) db).1.replayStatus = .redelivery) :
    decide rt cfg now call tx db =
      let out := runTxCheck rt cfg now (tx.stamped call) db
      let d := scored cfg call (tx.stamped call) out.1
      match (cachedDecision (tx.stamped call) out.2).1 with
      | some prev => (.ok prev, out.2)
      | none => (.ok d, (storeDecision cfg now (tx.stamped call) d out.2).2) := by
  simp only [decide, if_neg h, bind_apply, enforcementLookup_apply, hrule, if_pos hagain, cachedDecision_snd]
  rcases (cachedDecision (tx.stamped call) (runTxCheck rt cfg now (tx.stamped call) db).2).1 with _ | prev
  · rfl
  · rfl

/-- A call that no rule refuses leaves every key but its result as the script does. -/
theorem decide_frame {rt : Runtime} {cfg : Config} {now : ℕ} {call : Call} {tx : Transaction}
    {db : Db} (h : ¬ (tx.eventId = "" ∨ tx.userId = ""))
    (hrule : refusal (tx.stamped call) (activeRules db (tx.stamped call)) = none)
    {k : String} (hk : k ≠ resultKey (tx.stamped call).eventId) :
    (decide rt cfg now call tx db).2 k = (runTxCheck rt cfg now (tx.stamped call) db).2 k := by
  have hstore : ∀ (d : Decision) (db' : Db), (storeDecision cfg now (tx.stamped call) d db').2 k = db' k :=
    fun d db' => (footprint_storeDecision cfg now _ d).frame db' k (by simpa using hk)
  by_cases hagain : (runTxCheck rt cfg now (tx.stamped call) db).1.replayStatus = .redelivery
  · rw [decide_redelivered h hrule hagain]
    dsimp only
    split
    · rfl
    · exact hstore _ _
  · rw [decide_scored h hrule hagain]
    exact hstore _ _

theorem txKeys_distinct (rt : Runtime) (tx : Transaction) : (txKeys rt tx).Distinct where
  replay_burst := append_ne_of_incomparable (p := replayKeyPrefix) (q := burstKeyPrefix) (by decide) _ _
  replay_session := append_ne_of_incomparable (p := replayKeyPrefix) (q := sessionKeyPrefix) (by decide) _ _
  burst_session := append_ne_of_incomparable (p := burstKeyPrefix) (q := sessionKeyPrefix) (by decide) _ _

/-- A call of `Decide` writes the three script keys and its result, nothing else. -/
theorem decide_untouched (rt : Runtime) (cfg : Config) (now : ℕ) (call : Call) (tx : Transaction) (db : Db)
    {k : String} (hscript : k ∉ ({(txKeys rt (tx.stamped call)).replay, (txKeys rt (tx.stamped call)).burst,
      (txKeys rt (tx.stamped call)).session} : Set String))
    (hresult : k ≠ resultKey (tx.stamped call).eventId) :
    (decide rt cfg now call tx db).2 k = db k := by
  by_cases h : tx.eventId = "" ∨ tx.userId = ""
  · rw [decide_missingIds h]
  cases hrule : refusal (tx.stamped call) (activeRules db (tx.stamped call)) with
  | some r =>
      obtain ⟨reason, v⟩ := r
      rw [decide_refused h hrule]
  | none =>
      rw [decide_frame h hrule hresult]
      exact (footprint_txCheck _ _ _ _).frame _ _ hscript

@[simp] theorem stamped_eventId (tx : Transaction) (call : Call) :
    (tx.stamped call).eventId = tx.eventId := by
  unfold Transaction.stamped
  split <;> rfl

@[simp] theorem stamped_userId (tx : Transaction) (call : Call) :
    (tx.stamped call).userId = tx.userId := by
  unfold Transaction.stamped
  split <;> rfl

end Rtace.Engine
