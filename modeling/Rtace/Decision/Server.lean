import Rtace.Decision.CacheIntegrity
import Rtace.Decision.Parity
import Rtace.Decision.Policy

/-!
# The answers of the decision service

`internal/decision/server.go` over the engine, with the errors of Redis at each of its commands. An answer, fresh or
taken from the cache, is explained by its own reasons: they determine its score and its verdict, as the comments of
`decision.proto` have them. A request that is not valid is told so, and changes nothing.
-/

namespace Rtace.Engine

open Lib Redis

/-! ## Errors of Redis -/

/-- The commands of `Decide` that fail in a call, with the texts of their errors. The script and the write of the result
may still have been executed; a failed read of the stored verdict is taken for no verdict. -/
structure Faults where
  lookup : Option String := none
  script : Option (String × Bool) := none
  read : Bool := false
  store : Option (String × Bool) := none

/-- The error texts of `Decide`. -/
def DecideError.text (error : String) : DecideError → String
  | .missingIds => "event_id and user_id are required"
  | .enforcementLookup => "enforcement lookup: " ++ error
  | .txCheckLua => "tx_check.lua: " ++ error
  | .storeDecision => "store decision: " ++ error

/-- The end of `Decide`: the decision is stored and returned. Without a document there is nothing to store. -/
def conclude (cfg : Config) (now : ℕ) (tx : Transaction) (d : Decision) (faults : Faults) :
    Cmd (Except String Decision) :=
  match faults.store with
  | some (error, executed) =>
      if (marshal d).isNone then pure (.ok d)
      else if executed then do
        storeDecision cfg now tx d
        pure (.error (DecideError.storeDecision.text error))
      else pure (.error (DecideError.storeDecision.text error))
  | none => do
      storeDecision cfg now tx d
      pure (.ok d)

/-- `Decide` once no rule is in force. -/
def checkWith (rt : Runtime) (cfg : Config) (now : ℕ) (call : Call) (faults : Faults) (tx : Transaction) :
    Cmd (Except String Decision) :=
  match faults.script with
  | some (error, executed) =>
      if executed then do
        let _ ← runTxCheck rt cfg now tx
        pure (.error (DecideError.txCheckLua.text error))
      else pure (.error (DecideError.txCheckLua.text error))
  | none => do
      let r ← runTxCheck rt cfg now tx
      let cached ← if r.replayStatus = .redelivery ∧ ¬ faults.read then cachedDecision tx else pure none
      match cached with
      | some prev => pure (.ok prev)
      | none => conclude cfg now tx (scored cfg call tx r) faults

/-- `Decide`, with the commands that fail. -/
def decideWith (rt : Runtime) (cfg : Config) (now : ℕ) (call : Call) (faults : Faults) (tx : Transaction) :
    Cmd (Except String Decision) :=
  if tx.eventId = "" ∨ tx.userId = "" then pure (.error (DecideError.missingIds.text ""))
  else
    match faults.lookup with
    | some error => pure (.error (DecideError.enforcementLookup.text error))
    | none => do
        let rules ← enforcementLookup (tx.stamped call)
        match refusal (tx.stamped call) rules with
        | some (reason, v) => pure (.ok (newDecision call [reason] reason.score v))
        | none => checkWith rt cfg now call faults (tx.stamped call)

/-! ## The server -/

/-- `rtace.v1.Verdict`. -/
inductive ProtoVerdict where
  | unspecified
  | allow
  | challenge
  | deny
  deriving DecidableEq

/-- `rtace.v1.Reason`. -/
structure ProtoReason where
  type : String
  score : ℤ
  details : Dict

/-- `rtace.v1.DecideResponse`. -/
structure DecideResponse where
  decisionId : String
  verdict : ProtoVerdict
  score : ℤ
  reasons : List ProtoReason
  cached : Bool
  decidedAt : String

/-- `int32(x)`. -/
def int32 (x : ℤ) : ℤ := x.bmod (2 ^ 32)

/-- The map of `toProto`; a text that it does not have gives the zero value. -/
def protoVerdict (text : String) : ProtoVerdict :=
  if text = "ALLOW" then .allow
  else if text = "CHALLENGE" then .challenge
  else if text = "DENY" then .deny
  else .unspecified

/-- `toProto`. -/
def toProto (d : Decision) : DecideResponse where
  decisionId := d.decisionId
  verdict := protoVerdict d.verdict.text
  score := int32 d.score
  reasons := d.reasons.map fun r => ⟨r.type, int32 r.score, r.details⟩
  cached := d.cached
  decidedAt := d.decidedAt

/-- The counters of `metrics.go`. -/
structure Metrics where
  decisionsTotal : String → ℕ := fun _ => 0
  decisionReasonsTotal : String → ℕ := fun _ => 0
  decisionLatencyCount : ℕ := 0
  decisionErrorsTotal : ℕ := 0

/-- A call that failed. -/
def Metrics.failed (m : Metrics) : Metrics := { m with decisionErrorsTotal := m.decisionErrorsTotal + 1 }

/-- A call that was answered. -/
def Metrics.answered (m : Metrics) (d : Decision) : Metrics :=
  { m with
    decisionsTotal := fun v => m.decisionsTotal v + if v = d.verdict.text then 1 else 0
    decisionReasonsTotal := fun type => m.decisionReasonsTotal type + (d.reasons.map Reason.type).count type
    decisionLatencyCount := m.decisionLatencyCount + 1 }

/-- How `Server.decide` ends. -/
inductive Outcome where
  | response (r : DecideResponse)
  /-- `errInvalid`. -/
  | invalid (error : String)
  | failed (error : String)

/-- `Server.decide`. -/
def serverDecide {rt : Runtime} (w : Wire rt) (cfg : Config) (now : ℕ) (call : Call) (faults : Faults) (m : Metrics)
    (t : ProtoTransaction) : Cmd (Outcome × Metrics) := do
  match w.transaction t with
  | none => pure (.invalid "invalid request\nevent_id and user_id are required", m.failed)
  | some tx => do
      let d ← decideWith rt cfg now call faults tx
      match d with
      | .ok d => pure (.response (toProto d), m.answered d)
      | .error e => pure (.failed e, m.failed)

/-- The reply over gRPC. -/
inductive Status where
  | ok (r : DecideResponse)
  | invalidArgument (message : String)
  | unavailable (message : String)

/-- The end of `Server.Decide`. -/
def Outcome.status : Outcome → Status
  | .response r => .ok r
  | .invalid e => .invalidArgument e
  | .failed e => .unavailable e

/-- `Server.Decide`. -/
def grpcDecide {rt : Runtime} (w : Wire rt) (cfg : Config) (now : ℕ) (call : Call) (faults : Faults) (m : Metrics)
    (request : Option ProtoTransaction) : Cmd (Status × Metrics) := do
  match request with
  | none => pure (.invalidArgument "transaction is required", m)
  | some t => do
      let out ← serverDecide w cfg now call faults m t
      pure (out.1.status, out.2)

/-- The body of a request: it cannot be read, it is no `DecideRequest`, or it is one, with or without a transaction. -/
inductive Body where
  | unreadable (error : String)
  | malformed (error : String)
  | request (t : Option ProtoTransaction)

/-- The reply over HTTP: a text, a JSON object with an error, or a response. -/
inductive HttpReply where
  | text (code : ℕ) (body : String)
  | error (code : ℕ) (error : String)
  | response (code : ℕ) (r : DecideResponse)

/-- The end of the handler of `POST /v1/decide`. -/
def Outcome.reply : Outcome → HttpReply
  | .response r => .response 200 r
  | .invalid e => .error 400 e
  | .failed e => .error 503 e

/-- The handler of `POST /v1/decide`; `http.Error` ends its text with a newline. -/
def httpDecide {rt : Runtime} (w : Wire rt) (cfg : Config) (now : ℕ) (call : Call) (faults : Faults) (m : Metrics)
    (body : Body) : Cmd (HttpReply × Metrics) := do
  match body with
  | .unreadable e => pure (.text 400 (e ++ "\n"), m)
  | .malformed e => pure (.text 400 ("invalid JSON: " ++ e ++ "\n"), m)
  | .request none => pure (.text 400 "\x7b\"error\":\"transaction is required\"\x7d\n", m)
  | .request (some t) => do
      let out ← serverDecide w cfg now call faults m t
      pure (out.1.reply, out.2)

/-! ## Explained answers -/

/-- The reasons of `decision.proto`, with what they contribute. -/
def contributions : List (String × ℤ) :=
  [("replay_attack", scoreReplay), ("fraud_burst", scoreBurst), ("geo_velocity_anomaly", scoreGeo),
    ("user_quarantined", scoreQuarantine), ("ip_blocked", scoreIPBlocked), ("step_up_pending", scoreGeo)]

/-- The strongest contribution plus 10 for each of the others, at most 100. -/
def combined (scores : List ℤ) : ℤ :=
  if scores.isEmpty then 0
  else min 100 (scores.foldl (fun m x => if x > m then x else m) 0 + 10 * (scores.length - 1 : ℕ))

/-- A rule in force decides; otherwise the score does. -/
def verdictFor (cfg : Config) (types : List String) (score : ℤ) : Verdict :=
  if types.any (· ∈ ["user_quarantined", "ip_blocked"]) then .deny
  else if "step_up_pending" ∈ types then .challenge
  else if types.isEmpty then .allow
  else if score ≥ cfg.denyScore then .deny
  else if score ≥ cfg.challengeScore then .challenge
  else .allow

/-- The reasons determine score and verdict. -/
structure Explained (cfg : Config) (d : Decision) : Prop where
  reasons : ∀ x ∈ d.reasons, (x.type, x.score) ∈ contributions
  score : d.score = combined (d.reasons.map Reason.score)
  verdict : d.verdict = verdictFor cfg (d.reasons.map Reason.type) d.score

/-- What `decision.proto` says of a response: every reason is one of its six, with a contribution and a score from 0 to
100, and a verdict; and the reasons determine the score and the verdict. -/
structure Contract (cfg : Config) (r : DecideResponse) : Prop where
  reasons : ∀ x ∈ r.reasons, (x.type, x.score) ∈ contributions
  range : 0 ≤ r.score ∧ r.score ≤ 100
  score : r.score = combined (r.reasons.map ProtoReason.score)
  specified : r.verdict ≠ .unspecified
  verdict : r.verdict = protoVerdict (verdictFor cfg (r.reasons.map ProtoReason.type) r.score).text

section

variable {rt : Runtime} {cfg : Config} {now : ℕ} {call : Call} {tx : Transaction} {d : Decision}

theorem le_foldl_max (scores : List ℤ) (m : ℤ) : m ≤ scores.foldl (fun m x => if x > m then x else m) m := by
  induction scores generalizing m with
  | nil => exact le_rfl
  | cons x xs ih =>
      rw [List.foldl_cons]
      refine le_trans ?_ (ih _)
      split <;> omega

theorem combined_range (scores : List ℤ) : 0 ≤ combined scores ∧ combined scores ≤ 100 := by
  unfold combined
  split
  · decide
  · have hmax := le_foldl_max scores 0
    omega

theorem int32_of_range {x : ℤ} (h : 0 ≤ x ∧ x ≤ 100) : int32 x = x := by
  rw [int32, Int.bmod_eq_of_le]
  all_goals omega

theorem contributions_range {type : String} {score : ℤ} (h : (type, score) ∈ contributions) :
    0 ≤ score ∧ score ≤ 100 := by
  simp only [contributions, List.mem_cons, List.not_mem_nil, or_false, Prod.mk.injEq] at h
  rcases h with ⟨-, rfl⟩ | ⟨-, rfl⟩ | ⟨-, rfl⟩ | ⟨-, rfl⟩ | ⟨-, rfl⟩ | ⟨-, rfl⟩ <;> decide

theorem protoVerdict_text (v : Verdict) : protoVerdict v.text ≠ .unspecified := by
  cases v <;> decide

theorem toProto_types (d : Decision) : (toProto d).reasons.map ProtoReason.type = d.reasons.map Reason.type := by
  rw [toProto, List.map_map]
  rfl

/-- On the wire nothing of the explanation is lost. -/
theorem Explained.contract (h : Explained cfg d) : Contract cfg (toProto d) := by
  have hscores : (toProto d).reasons.map ProtoReason.score = d.reasons.map Reason.score := by
    rw [toProto, List.map_map]
    exact List.map_congr_left fun x hx => int32_of_range (contributions_range (h.reasons x hx))
  have hrange : 0 ≤ d.score ∧ d.score ≤ 100 := h.score ▸ combined_range _
  have hscore : (toProto d).score = d.score := int32_of_range hrange
  refine ⟨fun x hx => ?_, hscore ▸ hrange, ?_, protoVerdict_text _, ?_⟩
  · obtain ⟨y, hy, rfl⟩ := List.mem_map.mp hx
    have hmem := h.reasons y hy
    rw [int32_of_range (contributions_range hmem)]
    exact hmem
  · rw [hscore, hscores, h.score]
  · rw [hscore, toProto_types, ← h.verdict]
    rfl

/-- A rule in force explains its answer. -/
theorem explained_refusal {rules : ActiveRules} {reason : Reason} {v : Verdict}
    (h : refusal tx rules = some (reason, v)) : Explained cfg (newDecision call [reason] reason.score v) := by
  unfold refusal at h
  split at h
  · obtain ⟨rfl, rfl⟩ := Prod.mk.inj (Option.some.inj h)
    exact ⟨by simp [newDecision, contributions], rfl, rfl⟩
  split at h
  · obtain ⟨rfl, rfl⟩ := Prod.mk.inj (Option.some.inj h)
    exact ⟨by simp [newDecision, contributions], rfl, rfl⟩
  split at h
  · obtain ⟨rfl, rfl⟩ := Prod.mk.inj (Option.some.inj h)
    exact ⟨by simp [newDecision, contributions], rfl, rfl⟩
  · cases h

theorem verdict_fst (cfg : Config) (reasons : List Reason) :
    (verdict cfg reasons).1 = combined (reasons.map Reason.score) := by
  simp only [verdict, combined, List.isEmpty_map, List.foldl_map, List.length_map]
  split
  · rfl
  · split
    · rfl
    · split <;> rfl

/-- So do the findings of the script. -/
theorem explained_scored (cfg : Config) (call : Call) (tx : Transaction) (r : TxReply) :
    Explained cfg (scored cfg call tx r) := by
  have hreasons : ∀ x ∈ interpret cfg tx r, (x.type, x.score) ∈ contributions.take 3 := by
    simp only [interpret]
    split <;> split <;> split <;> simp [contributions]
  have hfound : ∀ x ∈ interpret cfg tx r, x.type ∈ ["replay_attack", "fraud_burst", "geo_velocity_anomaly"] :=
    fun x hx => List.mem_map_of_mem (f := Prod.fst) (hreasons x hx)
  have hrules : ((interpret cfg tx r).map Reason.type).any (· ∈ ["user_quarantined", "ip_blocked"]) = false := by
    simp only [List.any_map, List.any_eq_false, Function.comp_apply, decide_eq_true_eq]
    intro x hx hrule
    have htype := hfound x hx
    simp only [List.mem_cons, List.not_mem_nil, or_false] at htype hrule
    rcases htype with htype | htype | htype <;> rw [htype] at hrule <;> revert hrule <;> decide
  have hstepUp : "step_up_pending" ∉ (interpret cfg tx r).map Reason.type := by
    intro hmem
    obtain ⟨x, hx, htype⟩ := List.mem_map.mp hmem
    have hkind := hfound x hx
    rw [htype] at hkind
    revert hkind
    decide
  refine ⟨fun x hx => List.mem_of_mem_take (hreasons x hx), verdict_fst cfg _, ?_⟩
  show (verdict cfg (interpret cfg tx r)).2 = verdictFor cfg ((interpret cfg tx r).map Reason.type) _
  rw [verdict_snd, verdictFor, hrules, List.isEmpty_map]
  simp only [Bool.false_eq_true, if_false, hstepUp]
  rfl

theorem Explained.cached (h : Explained cfg d) : Explained cfg { d with cached := true } :=
  ⟨h.reasons, h.score, h.verdict⟩

/-! ## Runs -/

/-- Every stored verdict is an explained one. -/
def Documented (cfg : Config) (db : Db) : Prop :=
  ∀ e p, payload (db (resultKey e)) = some p → ∃ d, p = .json d.toJson ∧ Explained cfg d

variable {db : Db}

theorem Documented.mono {db' : Db} (h : Documented cfg db)
    (hdb : ∀ e, db' (resultKey e) = db (resultKey e) ∨ db' (resultKey e) = none) : Documented cfg db' := by
  intro e p hp
  rcases hdb e with hsame | hnone
  · exact h e p (hsame ▸ hp)
  · rw [hnone] at hp
    cases hp

theorem resultKey_notMem_txKeys (rt : Runtime) (tx : Transaction) (e : String) :
    resultKey e ∉ ({(txKeys rt tx).replay, (txKeys rt tx).burst, (txKeys rt tx).session} : Set String) := fun h =>
  Set.disjoint_left.mp (keyFamilies_disjoint (by decide)) (txKeys_subset rt tx h)
    (mem_keyFamilies (List.mem_singleton_self resultKeyPrefix) e)

theorem Documented.script (h : Documented cfg db) (now : ℕ) (tx : Transaction) :
    Documented cfg (runTxCheck rt cfg now tx db).2 :=
  h.mono fun e => .inl ((footprint_txCheck _ _ _ _).frame _ _ (resultKey_notMem_txKeys rt tx e))

theorem Documented.store (h : Documented cfg db) (hd : Explained cfg d) (now : ℕ) (tx : Transaction) :
    Documented cfg (storeDecision cfg now tx d db).2 := by
  intro e p hp
  by_cases he : e = tx.eventId
  · subst he
    cases hmarshal : marshal d with
    | none =>
        simp only [storeDecision, hmarshal, pure_apply] at hp
        exact h _ p hp
    | some doc =>
        rw [storeDecision_marshal hmarshal] at hp
        obtain rfl := Option.some.inj hp
        simp only [marshal] at hmarshal
        split at hmarshal
        · obtain rfl := Option.some.inj hmarshal
          exact ⟨d, rfl, hd⟩
        · cases hmarshal
  · rw [(footprint_storeDecision cfg now tx d).frame db (resultKey e)
      (fun hmem => he (resultKey_injective (Set.mem_singleton_iff.mp hmem)))] at hp
    exact h e p hp

/-- What is read from the cache is explained. -/
theorem Documented.cached (h : Documented cfg db) (hd : (cachedDecision tx db).1 = some d) : Explained cfg d := by
  obtain ⟨j, d₀, hp, hj, rfl⟩ := cachedDecision_eq_some hd
  obtain ⟨d₁, hjson, hd₁⟩ := h _ _ hp
  obtain rfl := Payload.json.inj hjson
  rw [unmarshal_toJson] at hj
  obtain rfl := Option.some.inj hj
  exact hd₁.cached

/-- A command fails that a call cannot do without. -/
def Faults.Fatal (faults : Faults) : Prop := faults.lookup.isSome ∨ faults.script.isSome ∨ faults.store.isSome

/-- What a call leaves and returns: stored verdicts stay explained, so is its own, and an error has its cause. -/
structure Sound (cfg : Config) (tx : Transaction) (faults : Faults) (out : Except String Decision × Db) : Prop where
  documented : Documented cfg out.2
  explained : ∀ d, out.1 = .ok d → Explained cfg d
  fatal : ∀ e, out.1 = .error e → (tx.eventId = "" ∨ tx.userId = "") ∨ faults.Fatal

variable {faults : Faults}

theorem Sound.ok (hdb : Documented cfg db) (hd : Explained cfg d) : Sound cfg tx faults (.ok d, db) :=
  ⟨hdb, fun _ h => Except.ok.inj h ▸ hd, nofun⟩

theorem Sound.error {e : String} (hdb : Documented cfg db) (h : faults.Fatal) : Sound cfg tx faults (.error e, db) :=
  ⟨hdb, nofun, fun _ _ => .inr h⟩

theorem sound_conclude {tx' : Transaction} (h : Documented cfg db) (hd : Explained cfg d) :
    Sound cfg tx faults (conclude cfg now tx' d faults db) := by
  have hstored := h.store hd now tx'
  cases hfault : faults.store with
  | none =>
      simp only [conclude, hfault, bind_apply]
      exact .ok hstored hd
  | some f =>
      have hfatal : faults.Fatal := .inr (.inr (by simp [hfault]))
      simp only [conclude, hfault]
      split
      · exact .ok h hd
      · split
        · exact .error hstored hfatal
        · exact .error h hfatal

theorem sound_checkWith {tx' : Transaction} (h : Documented cfg db) :
    Sound cfg tx faults (checkWith rt cfg now call faults tx' db) := by
  have hscript : Documented cfg (runTxCheck rt cfg now tx' db).2 := h.script now tx'
  have hscored := explained_scored cfg call tx' (runTxCheck rt cfg now tx' db).1
  cases hfault : faults.script with
  | some f =>
      have hfatal : faults.Fatal := .inr (.inl (by simp [hfault]))
      simp only [checkWith, hfault]
      split
      · exact .error hscript hfatal
      · exact .error h hfatal
  | none =>
      simp only [checkWith, hfault, bind_apply]
      split
      · simp only [bind_apply, cachedDecision_snd]
        cases hcached : (cachedDecision tx' (runTxCheck rt cfg now tx' db).2).1 with
        | some prev => exact .ok hscript (hscript.cached hcached)
        | none => exact sound_conclude hscript hscored
      · exact sound_conclude hscript hscored

/-- One call of `Decide`, with any errors of Redis. -/
theorem sound_decideWith (h : Documented cfg db) : Sound cfg tx faults (decideWith rt cfg now call faults tx db) := by
  by_cases hids : tx.eventId = "" ∨ tx.userId = ""
  · simp only [decideWith, if_pos hids]
    exact ⟨h, nofun, fun _ _ => .inl hids⟩
  cases hfault : faults.lookup with
  | some error =>
      simp only [decideWith, if_neg hids, hfault]
      exact .error h (.inl (by simp [hfault]))
  | none =>
      simp only [decideWith, if_neg hids, hfault, bind_apply, enforcementLookup_apply]
      cases hrefusal : refusal (tx.stamped call) (activeRules db (tx.stamped call)) with
      | some r => exact .ok h (explained_refusal hrefusal)
      | none => exact sound_checkWith h

/-- With a healthy Redis this is `Decide`. -/
theorem decideWith_healthy (db : Db) :
    decideWith rt cfg now call {} tx db =
      ((decide rt cfg now call tx db).1.mapError (DecideError.text ""), (decide rt cfg now call tx db).2) := by
  by_cases hids : tx.eventId = "" ∨ tx.userId = ""
  · simp only [decideWith, decide, if_pos hids]
    rfl
  simp only [decideWith, decide, if_neg hids, bind_apply, enforcementLookup_apply]
  cases refusal (tx.stamped call) (activeRules db (tx.stamped call)) with
  | some r => rfl
  | none =>
      simp only [checkWith, conclude, bind_apply, Bool.false_eq_true, not_false_eq_true, and_true]
      split
      · simp only [bind_apply]
        cases (cachedDecision (tx.stamped call) (runTxCheck rt cfg now (tx.stamped call) db).2).1 <;> rfl
      · rfl

end

/-! ## Exchanges -/

/-- A request, with the commands of Redis that fail, and its reply. -/
inductive Exchange where
  | grpc (faults : Faults) (request : Option ProtoTransaction) (status : Status)
  | http (faults : Faults) (body : Body) (reply : HttpReply)

namespace Exchange

def faults : Exchange → Faults
  | grpc faults .. | http faults .. => faults

def transaction : Exchange → Option ProtoTransaction
  | grpc _ t _ | http _ (.request t) _ => t
  | http .. => none

def response : Exchange → Option DecideResponse
  | grpc _ _ (.ok r) | http _ _ (.response _ r) => some r
  | _ => none

/-- The caller is told that the request is not valid. -/
def rejected : Exchange → Bool
  | grpc _ _ (.invalidArgument _) => true
  | http _ _ (.text code _) | http _ _ (.error code _) => code = 400
  | _ => false

/-- The caller is told to come back. -/
def unavailable : Exchange → Bool
  | grpc _ _ (.unavailable _) => true
  | http _ _ (.error code _) => code = 503
  | _ => false

/-- There is a transaction with both ids. -/
def Valid (x : Exchange) : Prop := ∃ t, x.transaction = some t ∧ t.eventId ≠ "" ∧ t.userId ≠ ""

/-- The caller had sent a transaction and gets no response. -/
def failed (x : Exchange) : Bool := x.transaction.isSome && x.response.isNone

end Exchange

/-- Redis, and the counters of a process that serves requests. -/
structure Service where
  redis : Db
  metrics : Metrics := {}

/-- One request, or anything that others and the clock do to Redis: they drop results but write none. -/
inductive ServerStep {rt : Runtime} (w : Wire rt) (cfg : Config) (s : Service) : Option Exchange → Service → Prop
  | grpc (now : ℕ) (call : Call) (faults : Faults) (request : Option ProtoTransaction) {status : Status} {m : Metrics}
      {db : Db} (h : grpcDecide w cfg now call faults s.metrics request s.redis = ((status, m), db)) :
      ServerStep w cfg s (some (.grpc faults request status)) ⟨db, m⟩
  | http (now : ℕ) (call : Call) (faults : Faults) (body : Body) {reply : HttpReply} {m : Metrics}
      {db : Db} (h : httpDecide w cfg now call faults s.metrics body s.redis = ((reply, m), db)) :
      ServerStep w cfg s (some (.http faults body reply)) ⟨db, m⟩
  | other {db : Db} (hresult : ∀ e, db (resultKey e) = s.redis (resultKey e) ∨ db (resultKey e) = none) :
      ServerStep w cfg s none { s with redis := db }

/-- The counters after an exchange. -/
def Metrics.after (m : Metrics) (x : Exchange) : Metrics where
  decisionsTotal v := m.decisionsTotal v + x.response.toList.countP fun r => r.verdict = protoVerdict v
  decisionReasonsTotal type :=
    m.decisionReasonsTotal type + (x.response.toList.flatMap fun r => r.reasons.map ProtoReason.type).count type
  decisionLatencyCount := m.decisionLatencyCount + x.response.toList.length
  decisionErrorsTotal := m.decisionErrorsTotal + if x.failed then 1 else 0

section

variable {rt : Runtime} {w : Wire rt} {cfg : Config} {s s' : Service} {log : List (Option Exchange)}

theorem protoVerdict_eq_iff (text : String) (v : Verdict) :
    protoVerdict v.text = protoVerdict text ↔ text = v.text := by
  constructor
  · intro h
    unfold protoVerdict at h
    cases v <;> simp only [Verdict.text] at h ⊢ <;> split_ifs at h <;> simp_all
  · rintro rfl
    rfl

theorem Metrics.after_failed (m : Metrics) {x : Exchange} (h : x.failed = true) : m.after x = m.failed := by
  have hnone : x.response = none := by
    rw [Exchange.failed, Bool.and_eq_true] at h
    exact Option.isNone_iff_eq_none.mp h.2
  simp [Metrics.after, Metrics.failed, h, hnone]

theorem Metrics.after_answered (m : Metrics) {x : Exchange} {d : Decision} (h : x.response = some (toProto d)) :
    m.after x = m.answered d := by
  have hfailed : x.failed = false := by simp [Exchange.failed, h]
  have hverdict : ∀ v, (toProto d).verdict = protoVerdict v ↔ v = d.verdict.text := fun v =>
    protoVerdict_eq_iff v d.verdict
  simp [Metrics.after, Metrics.answered, h, hfailed, toProto_types, List.countP_cons, hverdict]

/-- The ways in which `Server.decide` ends. -/
theorem serverDecide_cases {now : ℕ} {call : Call} {faults : Faults} {m m' : Metrics} {t : ProtoTransaction}
    {out : Outcome} {db db' : Db} (hdb : Documented cfg db)
    (h : serverDecide w cfg now call faults m t db = ((out, m'), db')) :
    ((t.eventId = "" ∨ t.userId = "") ∧ (∃ e, out = .invalid e) ∧ m' = m.failed ∧ db' = db) ∨
      (¬ (t.eventId = "" ∨ t.userId = "") ∧ Documented cfg db' ∧
        ((∃ d, out = .response (toProto d) ∧ Explained cfg d ∧ m' = m.answered d) ∨
          (∃ e, out = .failed e) ∧ faults.Fatal ∧ m' = m.failed)) := by
  by_cases hids : t.eventId = "" ∨ t.userId = ""
  · simp only [serverDecide, Wire.transaction, if_pos hids] at h
    cases h
    exact .inl ⟨hids, ⟨_, rfl⟩, rfl, rfl⟩
  · obtain ⟨tx, htx, htxids⟩ : ∃ tx, w.transaction t = some tx ∧ ¬ (tx.eventId = "" ∨ tx.userId = "") :=
      ⟨_, if_neg hids, hids⟩
    have hsound := @sound_decideWith rt cfg now call tx db faults hdb
    simp only [serverDecide, htx, bind_apply] at h
    cases hres : (decideWith rt cfg now call faults tx db).1 with
    | ok d =>
        rw [hres] at h
        cases h
        exact .inr ⟨hids, hsound.documented, .inl ⟨d, rfl, hsound.explained d hres, rfl⟩⟩
    | error e =>
        rw [hres] at h
        cases h
        exact .inr ⟨hids, hsound.documented, .inr ⟨⟨e, rfl⟩, (hsound.fatal e hres).resolve_left htxids, rfl⟩⟩

/-- What an exchange is to the caller, and what it leaves. -/
structure Proper (cfg : Config) (s : Service) (x : Exchange) (s' : Service) : Prop where
  contract : ∀ r, x.response = some r → Contract cfg r
  rejected : x.rejected = true ↔ ¬ x.Valid
  unavailable : x.unavailable = true → x.faults.Fatal
  answered : x.response.isSome ∨ x.rejected = true ∨ x.unavailable = true
  documented : Documented cfg s'.redis
  unchanged : x.rejected = true → s'.redis = s.redis
  metrics : s'.metrics = s.metrics.after x

/-- A request without a transaction. -/
theorem Proper.empty {x : Exchange} (hdb : Documented cfg s.redis) (ht : x.transaction = none) (hr : x.response = none)
    (hrejected : x.rejected = true) (hunavailable : x.unavailable = false) : Proper cfg s x s where
  contract r h := by
    rw [hr] at h
    cases h
  rejected := by simp [hrejected, Exchange.Valid, ht]
  unavailable h := by
    rw [hunavailable] at h
    cases h
  answered := .inr (.inl hrejected)
  documented := hdb
  unchanged _ := rfl
  metrics := by simp [Metrics.after, Exchange.failed, ht, hr]

/-- A request with a transaction. -/
theorem Proper.decided {now : ℕ} {call : Call} {faults : Faults} {t : ProtoTransaction} {out : Outcome} {m : Metrics}
    {db : Db} {x : Exchange} (hdb : Documented cfg s.redis)
    (h : serverDecide w cfg now call faults s.metrics t s.redis = ((out, m), db)) (ht : x.transaction = some t)
    (hfaults : x.faults = faults) (hr : x.response = match out with | .response r => some r | _ => none)
    (hrejected : x.rejected = match out with | .invalid _ => true | _ => false)
    (hunavailable : x.unavailable = match out with | .failed _ => true | _ => false) :
    Proper cfg s x ⟨db, m⟩ := by
  have hvalid : x.Valid ↔ ¬ (t.eventId = "" ∨ t.userId = "") := by simp [Exchange.Valid, ht, not_or]
  obtain ⟨hids, ⟨e, rfl⟩, rfl, rfl⟩ | ⟨hids, hdb', ⟨d, rfl, hd, rfl⟩ | ⟨⟨e, rfl⟩, hfatal, rfl⟩⟩ :=
    serverDecide_cases hdb h
  · have hfailed : x.failed = true := by simp [Exchange.failed, ht, hr]
    exact ⟨by simp [hr], by simp [hrejected, hvalid, hids], by simp [hunavailable], by simp [hrejected], hdb,
      fun _ => rfl, (s.metrics.after_failed hfailed).symm⟩
  · exact ⟨by simpa [hr] using hd.contract, by simp [hrejected, hvalid, hids], by simp [hunavailable], by simp [hr], hdb',
      by simp [hrejected], (s.metrics.after_answered hr).symm⟩
  · have hfailed : x.failed = true := by simp [Exchange.failed, ht, hr]
    exact ⟨by simp [hr], by simp [hrejected, hvalid, hids], fun _ => hfaults ▸ hfatal, by simp [hunavailable], hdb',
      by simp [hrejected], (s.metrics.after_failed hfailed).symm⟩

/-- Both transports. -/
theorem ServerStep.proper {x : Exchange} (hdb : Documented cfg s.redis) (h : ServerStep w cfg s (some x) s') :
    Proper cfg s x s' := by
  cases h with
  | grpc now call faults request h =>
      cases request with
      | none =>
          cases h
          exact .empty hdb rfl rfl rfl rfl
      | some t =>
          simp only [grpcDecide, bind_apply] at h
          rcases hout : serverDecide w cfg now call faults s.metrics t s.redis with ⟨⟨out, m⟩, db⟩
          rw [hout] at h
          cases h
          refine .decided hdb hout rfl rfl ?_ ?_ ?_ <;> cases out <;> rfl
  | http now call faults body h =>
      rcases body with e | e | _ | t
      · cases h
        exact .empty hdb rfl rfl rfl rfl
      · cases h
        exact .empty hdb rfl rfl rfl rfl
      · cases h
        exact .empty hdb rfl rfl rfl rfl
      · simp only [httpDecide, bind_apply] at h
        rcases hout : serverDecide w cfg now call faults s.metrics t s.redis with ⟨⟨out, m⟩, db⟩
        rw [hout] at h
        cases h
        refine .decided hdb hout rfl rfl ?_ ?_ ?_ <;> cases out <;> rfl

theorem ServerStep.documented {l : Option Exchange} (hdb : Documented cfg s.redis) (h : ServerStep w cfg s l s') :
    Documented cfg s'.redis := by
  cases l with
  | some x => exact (h.proper hdb).documented
  | none =>
      cases h with
      | other hresult => exact hdb.mono hresult

theorem documented_of_empty {db : Db} (h : ∀ e, payload (db (resultKey e)) = none) : Documented cfg db := by
  intro e p hp
  rw [h e] at hp
  cases hp

theorem documented_of_run (hempty : ∀ e, payload (s.redis (resultKey e)) = none)
    (hrun : Run (ServerStep w cfg) s log s') : Documented cfg s'.redis :=
  hrun.invariant (I := fun s => Documented cfg s.redis) (documented_of_empty hempty) fun _ _ _ hI h => h.documented hI

/-- Every exchange of a run is a proper one. -/
theorem proper_of_run (hempty : ∀ e, payload (s.redis (resultKey e)) = none)
    (hrun : Run (ServerStep w cfg) s log s') {x : Exchange} (hx : some x ∈ log) : ∃ a b, Proper cfg a x b := by
  obtain ⟨before, after, rfl⟩ := List.append_of_mem hx
  obtain ⟨a, b, hbefore, hstep, -⟩ := hrun.split
  exact ⟨a, b, hstep.proper (documented_of_run hempty hbefore)⟩

/-- Over gRPC and HTTP, whatever fails in Redis and whatever other services do to it: every response, computed or from
the cache, is explained by its reasons. A request is rejected if and only if it has no transaction with both ids, and
every other request is answered unless a command fails that it cannot do without. -/
theorem answers_explained (hempty : ∀ e, payload (s.redis (resultKey e)) = none)
    (hrun : Run (ServerStep w cfg) s log s') {x : Exchange} (hx : some x ∈ log) :
    (∀ r, x.response = some r → Contract cfg r) ∧ (x.rejected = true ↔ ¬ x.Valid) ∧
      (x.Valid → ¬ x.faults.Fatal → x.response.isSome) := by
  obtain ⟨a, b, hproper⟩ := proper_of_run hempty hrun hx
  refine ⟨hproper.contract, hproper.rejected, fun hvalid hhealthy => ?_⟩
  rcases hproper.answered with hanswered | hrejected | hunavailable
  · exact hanswered
  · exact absurd hvalid (hproper.rejected.mp hrejected)
  · exact absurd (hproper.unavailable hunavailable) hhealthy

/-! ## The counters -/

theorem mem_of_protoVerdict {text : String} (h : protoVerdict text ≠ .unspecified) :
    text ∈ ["ALLOW", "CHALLENGE", "DENY"] := by
  unfold protoVerdict at h
  split_ifs at h <;> simp_all

/-- Three verdicts make up all responses. -/
theorem countP_verdicts {rs : List DecideResponse} (h : ∀ r ∈ rs, r.verdict ≠ .unspecified) :
    rs.countP (fun r => r.verdict = protoVerdict "ALLOW") + rs.countP (fun r => r.verdict = protoVerdict "CHALLENGE") +
      rs.countP (fun r => r.verdict = protoVerdict "DENY") = rs.length := by
  induction rs with
  | nil => rfl
  | cons r rs ih =>
      have hrs := ih fun x hx => h x (List.mem_cons_of_mem r hx)
      have hr := h r List.mem_cons_self
      have hverdicts : protoVerdict "ALLOW" = .allow ∧ protoVerdict "CHALLENGE" = .challenge ∧
          protoVerdict "DENY" = .deny := by decide
      simp only [hverdicts, List.countP_cons, List.length_cons] at hrs ⊢
      cases hv : r.verdict with
      | unspecified => exact absurd hv hr
      | _ =>
          simp
          omega

/-- The responses of a run. -/
def responses (log : List (Option Exchange)) : List DecideResponse := log.filterMap (Option.bind · Exchange.response)

/-- The counters agree with what was sent. -/
structure Accounted (log : List (Option Exchange)) (m : Metrics) : Prop where
  errors : m.decisionErrorsTotal = log.countP (Option.any Exchange.failed)
  latency : m.decisionLatencyCount = (responses log).length
  decisions : ∀ v, m.decisionsTotal v = (responses log).countP fun r => r.verdict = protoVerdict v
  reasons : ∀ type, m.decisionReasonsTotal type
    = ((responses log).flatMap fun r => r.reasons.map ProtoReason.type).count type

theorem responses_snoc (log : List (Option Exchange)) (x : Exchange) :
    responses (log ++ [some x]) = responses log ++ x.response.toList := by
  rw [responses, List.filterMap_append]
  cases h : x.response <;> simp [responses, h]

theorem Accounted.snoc {m : Metrics} (h : Accounted log m) (x : Exchange) :
    Accounted (log ++ [some x]) (m.after x) where
  errors := by simp [Metrics.after, h.errors, List.countP_append, List.countP_cons]
  latency := by simp [Metrics.after, h.latency, responses_snoc]
  decisions v := by simp [Metrics.after, h.decisions v, responses_snoc, List.countP_append]
  reasons type := by simp [Metrics.after, h.reasons type, responses_snoc, List.count_append]

theorem Accounted.other {m : Metrics} (h : Accounted log m) : Accounted (log ++ [none]) m where
  errors := by simp [h.errors]
  latency := by simp [h.latency, responses]
  decisions v := by simp [h.decisions v, responses]
  reasons type := by simp [h.reasons type, responses]

/-- The counters of a process that starts: errors, answers and verdicts are those that were sent, every answer has one
of the three verdicts, and only the six reasons are counted. -/
theorem metrics_accounted {db : Db} (hempty : ∀ e, payload (db (resultKey e)) = none)
    (hrun : Run (ServerStep w cfg) ⟨db, {}⟩ log s) :
    Accounted log s.metrics ∧
      s.metrics.decisionsTotal "ALLOW" + s.metrics.decisionsTotal "CHALLENGE" + s.metrics.decisionsTotal "DENY"
        = s.metrics.decisionLatencyCount ∧
      (∀ v, 0 < s.metrics.decisionsTotal v → v ∈ ["ALLOW", "CHALLENGE", "DENY"]) ∧
      ∀ type, 0 < s.metrics.decisionReasonsTotal type → type ∈ contributions.map Prod.fst := by
  have haccounted : Accounted log s.metrics := by
    refine (hrun.history (I := fun ls a => Documented cfg a.redis ∧ Accounted ls a.metrics)
      ⟨documented_of_empty hempty, ⟨rfl, rfl, fun _ => rfl, fun _ => rfl⟩⟩ ?_).2
    rintro ls a l b ⟨hdb, hacc⟩ hstep
    refine ⟨hstep.documented hdb, ?_⟩
    cases l with
    | some x =>
        rw [(hstep.proper hdb).metrics]
        exact hacc.snoc x
    | none =>
        cases hstep with
        | other hresult => exact hacc.other
  have hcontract : ∀ r ∈ responses log, Contract cfg r := by
    intro r hr
    obtain ⟨l, hl, hresponse⟩ := List.mem_filterMap.mp hr
    obtain ⟨x, rfl, hx⟩ := Option.bind_eq_some_iff.mp hresponse
    obtain ⟨a, b, hproper⟩ := proper_of_run hempty hrun hl
    exact hproper.contract r hx
  refine ⟨haccounted, ?_, fun v hv => ?_, fun type htype => ?_⟩
  · rw [haccounted.decisions, haccounted.decisions, haccounted.decisions, haccounted.latency]
    exact countP_verdicts fun r hr => (hcontract r hr).specified
  · rw [haccounted.decisions, List.countP_pos_iff] at hv
    obtain ⟨r, hr, hverdict⟩ := hv
    have hspecified := (hcontract r hr).specified
    rw [of_decide_eq_true hverdict] at hspecified
    exact mem_of_protoVerdict hspecified
  · rw [haccounted.reasons, List.count_pos_iff] at htype
    obtain ⟨r, hr, htype⟩ := List.mem_flatMap.mp htype
    obtain ⟨x, hx, rfl⟩ := List.mem_map.mp htype
    exact List.mem_map_of_mem (f := Prod.fst) ((hcontract r hr).reasons x hx)

end

/-- A time in UTC is determined by its instant. -/
theorem GoTime.eq_of_instant {t t' : GoTime} (hunix : t.unix = t'.unix) (hnanos : t.nanosecond = t'.nanosecond)
    (hutc : t.offset = 0) (hutc' : t'.offset = 0) : t = t' := by
  obtain ⟨h₁, h₂, h₃, h₄, h₅, h₆, h₇, h₈, h₉, -⟩ := t.valid
  obtain ⟨h₁', h₂', h₃', h₄', h₅', h₆', h₇', h₈', h₉', -⟩ := t'.valid
  rw [GoTime.unix_eq, GoTime.unix_eq, hutc, hutc', sub_zero, sub_zero] at hunix
  obtain ⟨⟨hy, hm, hd⟩, hh, hn, hs⟩ := utcSeconds_inj ⟨h₁, h₂⟩ ⟨h₁', h₂'⟩ ⟨h₃, h₄⟩ ⟨h₃', h₄'⟩ ⟨h₅, h₆⟩ ⟨h₅', h₆'⟩
    ⟨h₇, h₈, h₉⟩ ⟨h₇', h₈', h₉'⟩ hunix
  cases t
  cases t'
  simp only [GoTime.mk.injEq]
  exact ⟨hy, hm, hd, hh, hn, hs, hnanos, hutc.trans hutc'.symm⟩

namespace ServerSample

open Rtace.Sample

theorem midnight_valid : -62135596800 ≤ (1704067200 : ℤ) ∧ (1704067200 : ℤ) ≤ 253402300799 ∧ 0 < 1000000000 := by
  decide

/-- Midnight of the new year. -/
def midnight : ProtoTimestamp := ⟨1704067200, 0, midnight_valid⟩

/-- The first transaction of the sample as it is sent. -/
def request : ProtoTransaction where
  eventId := "e1"
  userId := "u1"
  amount := .num (25 / 2)
  merchant := "shop"
  timestamp := some midnight
  location := "NYC"
  latitude := .num 0
  longitude := .num 0
  ipAddress := ""

theorem request_transaction : requestWire.transaction request = some (transaction "e1") := by
  have hunix : (transaction "e1").timestamp.unix = midnight.seconds := by decide
  have htime : requestWire.asTime midnight = (transaction "e1").timestamp :=
    GoTime.eq_of_instant ((utcTime_unix midnight).trans hunix.symm) rfl rfl rfl
  rw [Wire.transaction, if_neg (by decide)]
  simp only [request, Option.map_some, Option.getD_some, htime]
  rfl

theorem decideWith_request :
    decideWith requestRuntime PolicySample.config 0 call {} (transaction "e1") (fun _ => none)
      = (.ok PolicySample.decision, PolicySample.decided) := by
  have hdecide : decide requestRuntime PolicySample.config 0 call (transaction "e1") (fun _ => none)
      = (.ok PolicySample.decision, PolicySample.decided) := PolicySample.decide_decision
  rw [decideWith_healthy, hdecide]
  rfl

/-- A request over HTTP, and one over gRPC that has no transaction. -/
def log : List (Option Exchange) :=
  [some (.http {} (.request (some request)) (.response 200 (toProto PolicySample.decision))),
    some (.grpc {} none (.invalidArgument "transaction is required"))]

theorem log_run : Run (ServerStep requestWire PolicySample.config) ⟨fun _ => none, {}⟩ log
    ⟨PolicySample.decided, Metrics.answered {} PolicySample.decision⟩ := by
  refine .cons (.http 0 call {} (.request (some request)) (m := Metrics.answered {} PolicySample.decision) ?_)
    (.single (.grpc 0 call {} none rfl))
  simp only [httpDecide, serverDecide, request_transaction, bind_apply, decideWith_request]
  rfl

end ServerSample

/-- The denial of the sample explains itself. -/
theorem answers_explained_burst : Contract PolicySample.config (toProto PolicySample.decision) :=
  (answers_explained (fun _ => rfl) ServerSample.log_run List.mem_cons_self).1 _ rfl

/-- One denial, and no error: what has no transaction is not counted. -/
theorem metrics_accounted_burst :
    let m := Metrics.answered {} PolicySample.decision
    m.decisionsTotal "ALLOW" + m.decisionsTotal "CHALLENGE" + m.decisionsTotal "DENY" = 1 ∧
      m.decisionErrorsTotal = 0 := by
  have h := metrics_accounted (fun _ => rfl) ServerSample.log_run
  exact ⟨h.2.1, h.1.errors⟩

end Rtace.Engine
