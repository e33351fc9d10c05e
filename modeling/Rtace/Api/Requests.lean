import Rtace.Containment.Justified
import Rtace.Decision.Engine

/-!
# The control API

`api/main.py`: the bearer token, the validation of the overrides, their Redis command and the audit record
that follows it. The API runs beside the pipeline, the decision service and containment, over one Redis. A
command of a request may fail, with or without having been executed, and the audit record is best effort.
-/

namespace Rtace.Api

open Lib Redis Containment

/-- The query parameter `ttl_seconds`. -/
inductive TtlSeconds where
  | absent
  | notAnInteger
  | seconds (n : ℤ)
  deriving DecidableEq

/-- The endpoints, with their path and query parameters. -/
inductive Route where
  | root
  | metrics
  | health
  | getRules
  | addQuarantine (userId : String) (ttl : TtlSeconds) (reason : Option String)
  | liftQuarantine (userId : String)
  | clearStepUp (userId : String)
  | addIpBlock (ip : String) (ttl : TtlSeconds) (reason : Option String)
  | liftIpBlock (ip : String)
  deriving DecidableEq

/-- A request: the endpoint, the credentials of its `Authorization: Bearer` header if it has one, and the
address of the client if it is known. -/
structure Request where
  route : Route
  credentials : Option String
  client : Option String

/-- What the process has read from its environment. -/
structure App where
  token : Option String
  redis : RedisConfig

/-- The answers: that of an override, that of a read, and the errors. The bodies of the reads and of a
validation error are left out. -/
inductive Response where
  | ok (status : ℕ) (body : Dict)
  | served
  | httpException (status : ℕ) (detail : String)
  | unprocessable
  | internalServerError

/-- `secrets.compare_digest` on strings: `none` is the `TypeError` for text that is not ASCII. -/
def compareDigest (a b : String) : Option Bool :=
  if a.toList.all (fun c => c.toNat < 128) && b.toList.all (fun c => c.toNat < 128) then some (a == b) else none

/-- `require_read`: the answer that ends the request, if there is one. -/
def requireRead (app : App) (req : Request) : Option Response :=
  match app.token, req.credentials with
  | none, _ => none
  | some _, none => some (.httpException 401 "Missing or invalid bearer token")
  | some token, some credentials =>
      match compareDigest credentials token with
      | none => some .internalServerError
      | some true => none
      | some false => some (.httpException 401 "Missing or invalid bearer token")

/-- `require_write`. -/
def requireWrite (app : App) (req : Request) : Option Response :=
  match app.token with
  | none => some (.httpException 503 "Manual overrides are disabled: set RTACE_API_TOKEN to enable them")
  | some _ => requireRead app req

/-- `Query(default=None, ge=1, le=most)`, and the default that stands in for an absent value. -/
def ttlOf (most default : ℕ) : TtlSeconds → Option ℕ
  | .absent => some default
  | .notAnInteger => none
  | .seconds n => if 1 ≤ n ∧ n ≤ most then some n.toNat else none

/-- The override that an endpoint asks for; `none` for a read, `some none` if its query is not valid. -/
def Route.override (app : App) : Route → Option (Option Override)
  | .root | .metrics | .health | .getRules => none
  | .addQuarantine userId ttl reason =>
      some ((ttlOf (7 * 24 * 3600) app.redis.quarantineTtlSeconds ttl).map fun n =>
        .addQuarantine userId n (reason.getD "manual"))
  | .liftQuarantine userId => some (some (.liftQuarantine userId))
  | .clearStepUp userId => some (some (.clearStepUp userId))
  | .addIpBlock ip ttl reason =>
      some ((ttlOf (30 * 24 * 3600) app.redis.ipBlockTtlSeconds ttl).map fun n =>
        .addIpBlock ip n (reason.getD "manual"))
  | .liftIpBlock ip => some (some (.liftIpBlock ip))

/-- What the override reports if there was nothing to remove, else its answer. -/
def answer : Override → Bool → Response
  | .addQuarantine u ttl _, _ =>
      .ok 201 [("user_id", .str u), ("action", .str "quarantine"), ("ttl_seconds", .num (.num ttl))]
  | .addIpBlock ip ttl _, _ =>
      .ok 201 [("ip", .str ip), ("action", .str "ip_block"), ("ttl_seconds", .num (.num ttl))]
  | .liftQuarantine u, true => .ok 200 [("user_id", .str u), ("action", .str "lift_quarantine")]
  | .liftQuarantine u, false => .httpException 404 ("No quarantine for user " ++ u)
  | .clearStepUp u, true => .ok 200 [("user_id", .str u), ("action", .str "clear_step_up")]
  | .clearStepUp u, false => .httpException 404 ("No pending step-up for user " ++ u)
  | .liftIpBlock ip, true => .ok 200 [("ip", .str ip), ("action", .str "lift_ip_block")]
  | .liftIpBlock ip, false => .httpException 404 ("No block for IP " ++ ip)

/-- `SETEX` refuses a lifetime of zero. Only the configured default can be that. -/
def accepted : Override → Bool
  | .addQuarantine _ ttl _ | .addIpBlock _ ttl _ => ttl != 0
  | .liftQuarantine _ | .clearStepUp _ | .liftIpBlock _ => true

/-- The override finds something to do: an addition always, a removal if the key is there. -/
def effective (op : Override) (db : Db) : Bool := op.touched db op.key

/-- A request on a healthy Redis: the answer, and the override that `_audit` is called for. -/
def handle (app : App) (now : ℕ) (req : Request) : Cmd (Response × Option Override) := fun db =>
  match req.route.override app with
  | none => (((match req.route with
      | .getRules => (requireRead app req).getD .served
      | _ => .served), none), db)
  | some op =>
      match requireWrite app req with
      | some refusal => ((refusal, none), db)
      | none =>
          match op with
          | none => ((.unprocessable, none), db)
          | some op =>
              if accepted op then
                ((answer op (effective op db), if effective op db then some op else none), (op.run now db).2)
              else ((.internalServerError, none), db)

/-- The answer if Redis fails. `error` is the text of the exception. -/
def Route.failure (error : String) : Route → Response
  | .root | .metrics => .served
  | .health => .httpException 503 error
  | _ => .internalServerError

/-- The fields of `_audit` for an override, after its action. -/
def auditFields : Override → String × Dict
  | .addQuarantine u ttl reason =>
      ("manual_quarantine", [("user_id", .str u), ("ttl_seconds", .num (.num ttl)), ("reason", .str reason)])
  | .liftQuarantine u => ("lift_quarantine", [("user_id", .str u)])
  | .clearStepUp u => ("clear_step_up", [("user_id", .str u)])
  | .addIpBlock ip ttl reason =>
      ("manual_ip_block", [("ip", .str ip), ("ttl_seconds", .num (.num ttl)), ("reason", .str reason)])
  | .liftIpBlock ip => ("lift_ip_block", [("ip", .str ip)])

/-- A message on the audit topic. -/
structure AuditMessage where
  key : Option String
  record : Dict

/-- The user or the address of an override. -/
def subject : Override → String
  | .addQuarantine u _ _ | .liftQuarantine u | .clearStepUp u => u
  | .addIpBlock ip _ _ | .liftIpBlock ip => ip

/-- `_audit`: the record of an override and the key it is sent under. -/
def auditOf (timestamp : String) (client : Option String) (op : Override) : AuditMessage where
  key := if subject op = "" then none else some (subject op)
  record := [("source", .str "api"), ("action", .str (auditFields op).1), ("timestamp", .str timestamp),
    ("client", client.elim .null .str)] ++ (auditFields op).2

/-! ## Beside the other services -/

/-- Redis with its containment clients, and what the API has written to the audit topic. -/
structure Desk where
  system : System
  journal : List AuditMessage

namespace Desk

/-- The keyspace is replaced, by a service that touches neither rules nor receipts. -/
def put (s : Desk) (db : Db) : Desk := { s with system := { s.system with db := db } }

/-- The command of an override is executed. -/
def override (s : Desk) (op : Override) : Desk :=
  { s with system := s.system.write (op.run s.system.now s.system.db).2 (op.touched s.system.db) }

/-- A request is answered on a healthy Redis. `sent`: if it has an audit record, the record is written. -/
def answer (app : App) (s : Desk) (req : Request) (timestamp : String) (sent : Bool) : Response × Desk :=
  match handle app s.system.now req s.system.db with
  | ((response, op), db) =>
      (response,
        { system := s.system.write db (op.elim (fun _ => false) fun op => op.touched s.system.db)
          journal := s.journal ++ if sent then op.toList.map (auditOf timestamp req.client) else [] })

end Desk

/-- What can happen. -/
inductive Act where
  | answered (req : Request) (response : Response) (timestamp : String) (sent : Bool)
  /-- Redis fails a request. -/
  | failed (req : Request) (response : Response) (executed : Bool)
  /-- Detection or a decision. -/
  | pipeline
  /-- Containment or the clock. -/
  | service (l : Label)

/-- The override that a request gets to run: the token fits, and the query is valid. -/
def admitted (app : App) (req : Request) : Option Override :=
  if (requireWrite app req).isNone then (req.route.override app).join else none

/-- One step. -/
inductive DeskStep (app : App) (rt : Runtime) (s : Desk) : Act → Desk → Prop
  | answered (req : Request) (timestamp : String) (sent : Bool) :
      DeskStep app rt s (.answered req (s.answer app req timestamp sent).1 timestamp sent)
        (s.answer app req timestamp sent).2
  /-- The command is not executed, or there is none. -/
  | failed (req : Request) (error : String) : DeskStep app rt s (.failed req (req.route.failure error) false) s
  /-- The command is executed and its reply is lost. -/
  | lost (req : Request) (error : String) (op : Override) (hop : admitted app req = some op) (haccepted : accepted op) :
      DeskStep app rt s (.failed req (req.route.failure error) true) (s.override op)
  | batch (kafka : KafkaConfig) (records : List DecodedRecord) :
      DeskStep app rt s .pipeline (s.put (handleBatch rt kafka app.redis s.system.now records s.system.db).2)
  | decision (cfg : Engine.Config) (call : Engine.Call) (tx : Engine.Transaction) :
      DeskStep app rt s .pipeline (s.put (Engine.decide rt cfg s.system.now call tx s.system.db).2)
  /-- Part of a batch or a decision whose commands interleave with those of others. -/
  | interleaved (db : Db) (hdb : ∀ k ∈ ruleKeys ∪ receiptKeys, db k = s.system.db k) :
      DeskStep app rt s .pipeline (s.put db)
  | service (l : Label) (sys : System) (h : ContainStep app.redis s.system l sys) (hl : ∀ op, l ≠ .override op) :
      DeskStep app rt s (.service l) { s with system := sys }

end Rtace.Api
