import Rtace.Common.Config
import Rtace.Common.Keys
import Rtace.Common.Redis
import Rtace.Lib.Optimistic
import Rtace.Lib.Transition

/-!
# Containment

`containment_engine/containment_actions.py` and the overrides of `api/main.py`. `applyContainment` is the
call as it runs undisturbed; `ContainStep` is the system: any number of clients, each advancing by one
Redis command of the `WATCH`/`GET`/`EXISTS`/`EXEC` loop, with overrides, expiry and crashes in between.
-/

namespace Rtace.Containment

open Lib Redis

/-- The receipt key of a detection id. -/
def receiptKey (detectionId : String) : String := receiptKeyPrefix ++ detectionId

/-- A containment action. -/
inductive ActionKind where
  | quarantine
  | ipBlock
  | stepUpAuth
  deriving DecidableEq, Repr

/-- The name of an action. -/
def ActionKind.text : ActionKind → String
  | quarantine => "quarantine"
  | ipBlock => "ip_block"
  | stepUpAuth => "step_up_auth"

/-- The detection carries an IP address. -/
def nonEmptyIp (d : DetectionEvent) : Option String :=
  d.ipAddress.filter fun ip => ip ≠ ""

/-- `_plan`, given whether a step-up is pending: the actions, and the rule writes with their TTLs. -/
def plan (cfg : RedisConfig) (d : DetectionEvent) (pending : Bool) : List ActionKind × List (String × ℕ) :=
  if d.detectionType = "replay_attack" ∨ d.detectionType = "fraud_burst" then
    ([.quarantine], [(quarantineKey d.userId, cfg.quarantineTtlSeconds)])
  else if d.detectionType = "credential_stuffing" then
    match (d.details.lookup "scope").getD (.str "user"), nonEmptyIp d with
    | .str "ip", some ip =>
        ([.quarantine, .ipBlock],
          [(quarantineKey d.userId, cfg.quarantineTtlSeconds), (ipBlockKey ip, cfg.ipBlockTtlSeconds)])
    | _, _ => ([.quarantine], [(quarantineKey d.userId, cfg.quarantineTtlSeconds)])
  else if d.detectionType = "geo_velocity_anomaly" then
    if pending then
      ([.stepUpAuth, .quarantine],
        [(stepUpKey d.userId, cfg.stepUpTtlSeconds), (quarantineKey d.userId, cfg.quarantineTtlSeconds)])
    else ([.stepUpAuth], [(stepUpKey d.userId, cfg.stepUpTtlSeconds)])
  else ([], [])

/-- `json.dumps(actions)`. -/
def encodeActions (actions : List ActionKind) : Payload := .json (.arr (actions.map fun a => .str a.text))

/-- One element of a receipt. -/
def decodeAction : Json → Option ActionKind
  | .str "quarantine" => some .quarantine
  | .str "ip_block" => some .ipBlock
  | .str "step_up_auth" => some .stepUpAuth
  | _ => none

/-- `json.loads(prior)`, for receipts that `json.dumps` wrote. -/
def decodeActions : Payload → Option (List ActionKind)
  | .json (.arr xs) => xs.mapM decodeAction
  | _ => none

/-- The queued commands of the transaction: the receipt, then the rules. -/
def writeAll (cfg : RedisConfig) (now : ℕ) (d : DetectionEvent)
    (p : List ActionKind × List (String × ℕ)) : Cmd Unit := do
  setEx now (receiptKey d.detectionId) (encodeActions p.1) cfg.containmentReceiptTtlSeconds
  let _ ← runAll (p.2.map fun w => setEx now w.1 (.text d.detectionId) w.2)
  pure ()

/-- `apply_containment` undisturbed: the actions, or `none` if the receipt cannot be read. -/
def applyContainment (cfg : RedisConfig) (now : ℕ) (d : DetectionEvent) :
    Cmd (Option (List ActionKind)) := do
  let prior ← get (receiptKey d.detectionId)
  match prior with
  | some p => pure (decodeActions p)
  | none => do
      let pending ← existsKey (stepUpKey d.userId)
      let p := plan cfg d pending
      if p.1.isEmpty then pure (some [])
      else do
        writeAll cfg now d p
        pure (some p.1)

/-- The audit record of `handle_detection`. -/
structure AuditRecord where
  detectionId : String
  detectionType : String
  userId : String
  ipAddress : Option String
  actions : List ActionKind
  action : String
  timestamp : Stamp
  details : Dict

/-- The record `handle_detection` emits for the actions of a call. -/
def auditRecord (d : DetectionEvent) (actions : List ActionKind) : AuditRecord where
  detectionId := d.detectionId
  detectionType := d.detectionType
  userId := d.userId
  ipAddress := d.ipAddress
  actions := actions
  action := if actions.isEmpty then "none" else "+".intercalate (actions.map ActionKind.text)
  timestamp := d.timestamp
  details := d.details

/-- The overrides of the API. -/
inductive Override where
  | addQuarantine (userId : String) (ttl : ℕ) (reason : String)
  | liftQuarantine (userId : String)
  | clearStepUp (userId : String)
  | addIpBlock (ip : String) (ttl : ℕ) (reason : String)
  | liftIpBlock (ip : String)

namespace Override

/-- The key an override writes or deletes. -/
def key : Override → String
  | addQuarantine u _ _ => quarantineKey u
  | liftQuarantine u => quarantineKey u
  | clearStepUp u => stepUpKey u
  | addIpBlock ip _ _ => ipBlockKey ip
  | liftIpBlock ip => ipBlockKey ip

/-- The Redis command of an override. -/
def run (now : ℕ) : Override → Cmd Unit
  | addQuarantine u ttl reason => setEx now (quarantineKey u) (.text ("api:" ++ reason)) ttl
  | liftQuarantine u => do let _ ← del (quarantineKey u); pure ()
  | clearStepUp u => do let _ ← del (stepUpKey u); pure ()
  | addIpBlock ip ttl reason => setEx now (ipBlockKey ip) (.text ("api:" ++ reason)) ttl
  | liftIpBlock ip => do let _ ← del (ipBlockKey ip); pure ()

/-- The keys an override touches: a `SETEX` always, a `DEL` if there was something to delete. -/
def touched (op : Override) (db : Db) (k : String) : Bool :=
  k == op.key && match op with
    | addQuarantine .. | addIpBlock .. => true
    | _ => (db k).isSome

end Override

/-! ## The system -/

/-- A connection inside `apply_containment`. From `WATCH` on it carries its watch. -/
inductive Client where
  | idle
  | ready (d : DetectionEvent)
  | watching (d : DetectionEvent) (w : Watch String)
  /-- The `GET` found no receipt, and the type is known. -/
  | missed (d : DetectionEvent) (w : Watch String)
  | planned (d : DetectionEvent) (w : Watch String) (p : List ActionKind × List (String × ℕ))

/-- The watch of a call: receipt and step-up key, both clean. -/
def watchOf (d : DetectionEvent) : Watch String := ⟨[receiptKey d.detectionId, stepUpKey d.userId], false⟩

/-- A client after a write that touches the keys of `touched`. -/
def Client.touch (touched : String → Bool) : Client → Client
  | idle => idle
  | ready d => ready d
  | watching d w => watching d (w.touch touched)
  | missed d w => missed d (w.touch touched)
  | planned d w p => planned d (w.touch touched) p

/-- Server time, keyspace and clients. -/
structure System where
  now : ℕ
  db : Db
  clients : ℕ → Client

namespace System

/-- Client `c` goes to `x`. -/
def goto (s : System) (c : ℕ) (x : Client) : System := { s with clients := Function.update s.clients c x }

/-- The keyspace becomes `db` by a write that touches the keys of `touched`. -/
def write (s : System) (db : Db) (touched : String → Bool) : System :=
  { s with db := db, clients := fun c => (s.clients c).touch touched }

end System

/-- The keys a transaction writes. -/
def writtenKeys (d : DetectionEvent) (p : List ActionKind × List (String × ℕ)) (k : String) : Bool :=
  k = receiptKey d.detectionId ∨ k ∈ p.2.map Prod.fst

/-- What a step does, as far as an observer of calls and overrides can tell. -/
inductive Label where
  /-- A read of the receipt that found it: the call returns its content. -/
  | hit (d : DetectionEvent) (actions : List ActionKind)
  /-- An unknown type without a receipt: the call returns `[]`. -/
  | ignored (d : DetectionEvent)
  /-- A successful `EXEC`; the call returns the actions unless the reply is lost. -/
  | exec (d : DetectionEvent) (actions : List ActionKind) (returned : Bool)
  | override (op : Override)
  /-- Time passes, and keys past their deadline are gone. -/
  | tick (now : ℕ)
  | start (d : DetectionEvent)
  /-- Another step of a call for this detection. -/
  | internal (d : DetectionEvent)
  /-- A connection breaks or its process dies. -/
  | crash

/-- One step of the system. -/
inductive ContainStep (cfg : RedisConfig) (s : System) : Label → System → Prop
  | start (c : ℕ) (d : DetectionEvent) (hc : s.clients c = .idle) :
      ContainStep cfg s (.start d) (s.goto c (.ready d))
  | watch (c : ℕ) (d : DetectionEvent) (hc : s.clients c = .ready d) :
      ContainStep cfg s (.internal d) (s.goto c (.watching d (watchOf d)))
  | hit (c : ℕ) (d : DetectionEvent) (w : Watch String) (p : Payload) (actions : List ActionKind)
      (hc : s.clients c = .watching d w) (hp : payload (s.db (receiptKey d.detectionId)) = some p)
      (ha : decodeActions p = some actions) :
      ContainStep cfg s (.hit d actions) (s.goto c .idle)
  | unreadable (c : ℕ) (d : DetectionEvent) (w : Watch String) (p : Payload)
      (hc : s.clients c = .watching d w) (hp : payload (s.db (receiptKey d.detectionId)) = some p)
      (ha : decodeActions p = none) :
      ContainStep cfg s (.internal d) (s.goto c .idle)
  | ignored (c : ℕ) (d : DetectionEvent) (w : Watch String) (hc : s.clients c = .watching d w)
      (hp : payload (s.db (receiptKey d.detectionId)) = none) (hd : (plan cfg d false).1 = []) :
      ContainStep cfg s (.ignored d) (s.goto c .idle)
  | miss (c : ℕ) (d : DetectionEvent) (w : Watch String) (hc : s.clients c = .watching d w)
      (hp : payload (s.db (receiptKey d.detectionId)) = none) (hd : (plan cfg d false).1 ≠ []) :
      ContainStep cfg s (.internal d) (s.goto c (.missed d w))
  | plan (c : ℕ) (d : DetectionEvent) (w : Watch String) (hc : s.clients c = .missed d w) :
      ContainStep cfg s (.internal d)
        (s.goto c (.planned d w (plan cfg d (s.db (stepUpKey d.userId)).isSome)))
  | exec (c : ℕ) (d : DetectionEvent) (w : Watch String) (p : List ActionKind × List (String × ℕ))
      (returned : Bool) (hc : s.clients c = .planned d w p) (hw : w.dirty = false) :
      ContainStep cfg s (.exec d p.1 returned)
        ((s.write (writeAll cfg s.now d p s.db).2 (writtenKeys d p)).goto c .idle)
  | conflict (c : ℕ) (d : DetectionEvent) (w : Watch String) (p : List ActionKind × List (String × ℕ))
      (hc : s.clients c = .planned d w p) (hw : w.dirty = true) :
      ContainStep cfg s (.internal d) (s.goto c (.ready d))
  | crash (c : ℕ) : ContainStep cfg s .crash (s.goto c .idle)
  | override (op : Override) :
      ContainStep cfg s (.override op) (s.write (op.run s.now s.db).2 (op.touched s.db))
  | tick (now : ℕ) (h : s.now ≤ now) :
      ContainStep cfg s (.tick now)
        { s.write (purge now s.db) (fun k => (s.db k).isSome && (purge now s.db k).isNone) with now := now }

end Rtace.Containment
