import Rtace.Common.Value
import Rtace.Lib.Footprint
import Rtace.Lib.ScoredSet

/-!
# Redis

The keyspace and the commands the services issue. A key holds a string, a sorted set, or the session
hash, with an optional deadline in milliseconds of server time. Commands take the server time `now`
where they set a deadline; a key past its deadline is removed by `purge`, which the transition systems
apply whenever time passes, so a command only ever meets live keys.

Every command is about one key. A key of another type than the command expects is answered as absent:
Redis replies with an error there, and no modelled service stores two types under one key.
-/

namespace Rtace

open Lib

/-- The content of a Redis string: plain text, or the text of a JSON document. -/
inductive Payload where
  | text (s : String)
  | json (j : Json)

/-- A Redis value. The session hash has the fields `lat`, `lon`, `ts`, any of which may be absent. -/
inductive RedisValue where
  | str (p : Payload)
  | zset (w : ScoredSet String ℚ)
  | hash (lat lon : Option Flt) (ts : Option ℚ)

/-- A value with its deadline. -/
structure Entry where
  val : RedisValue
  expireAt : Option ℕ

/-- The keyspace. -/
abbrev Db := String → Option Entry

/-- A program that talks to Redis. -/
abbrev Cmd (α : Type) := StateM Db α

/-- The keyspace after every key whose deadline has come is gone. -/
def purge (now : ℕ) (db : Db) : Db :=
  fun k => (db k).filter fun e => e.expireAt.all fun t => now < t

/-- A key is as it was or gone. -/
theorem purge_cases (now : ℕ) (db : Db) (k : String) : purge now db k = db k ∨ purge now db k = none := by
  unfold purge
  cases db k with
  | none => exact Or.inl rfl
  | some e =>
      rw [Option.filter_some]
      split
      · exact Or.inl rfl
      · exact Or.inr rfl

namespace Redis

/-- The deadline of a key written at `now` with a lifetime of `ttl` seconds. -/
def deadline (now ttl : ℕ) : Option ℕ := some (now + 1000 * ttl)

/-- The string under a key. -/
def payload : Option Entry → Option Payload
  | some ⟨.str p, _⟩ => some p
  | _ => none

/-- The sorted set under a key, empty if there is none. -/
def members : Option Entry → ScoredSet String ℚ
  | some ⟨.zset w, _⟩ => w
  | _ => .empty

/-- The fields of the session hash under a key. -/
def fields : Option Entry → Option Flt × Option Flt × Option ℚ
  | some ⟨.hash lat lon ts, _⟩ => (lat, lon, ts)
  | _ => (none, none, none)

/-- `EXISTS key`. -/
def existsKey (k : String) : Cmd Bool :=
  atKey k fun e => (e.isSome, e)

/-- `GET key`. -/
def get (k : String) : Cmd (Option Payload) :=
  atKey k fun e => (payload e, e)

/-- `SET key value NX EX ttl`: true if the key was absent and is now set. -/
def setNxEx (now : ℕ) (k : String) (v : Payload) (ttl : ℕ) : Cmd Bool :=
  atKey k fun
    | none => (true, some ⟨.str v, deadline now ttl⟩)
    | some e => (false, some e)

/-- `SETEX key ttl value`, also `SET key value EX ttl`. -/
def setEx (now : ℕ) (k : String) (v : Payload) (ttl : ℕ) : Cmd Unit :=
  atKey k fun _ => ((), some ⟨.str v, deadline now ttl⟩)

/-- `DEL key`: true if there was something to delete. -/
def del (k : String) : Cmd Bool :=
  atKey k fun e => (e.isSome, none)

/-- `ZREMRANGEBYSCORE key -inf cutoff`; a set left without members is removed. -/
def zremrangebyscore (k : String) (cutoff : ℚ) : Cmd Unit :=
  atKey k fun
    | some ⟨.zset w, t⟩ =>
        ((), if (w.trim cutoff).entries.isEmpty then none else some ⟨.zset (w.trim cutoff), t⟩)
    | e => ((), e)

/-- `ZADD key score member`; the deadline of an existing set is kept. -/
def zadd (k : String) (score : ℚ) (member : String) : Cmd Unit :=
  atKey k fun e => ((), some ⟨.zset ((members e).add score member), e.bind (·.expireAt)⟩)

/-- `ZCARD key`. -/
def zcard (k : String) : Cmd ℕ :=
  atKey k fun e => ((members e).card, e)

/-- `EXPIRE key ttl`. -/
def expire (now : ℕ) (k : String) (ttl : ℕ) : Cmd Unit :=
  atKey k fun e => ((), e.map fun v => { v with expireAt := deadline now ttl })

/-- What is left of a key in whole seconds, rounded to the nearest: -1 without a deadline, -2 without a key. -/
def remaining (now : ℕ) : Option Entry → ℤ
  | none => -2
  | some e => match e.expireAt with
      | none => -1
      | some t => ((t - now + 500) / 1000 : ℕ)

/-- `TTL key`. -/
def ttl (now : ℕ) (k : String) : Cmd ℤ :=
  atKey k fun e => (remaining now e, e)

/-- `HMGET key lat lon ts`. -/
def hmget (k : String) : Cmd (Option Flt × Option Flt × Option ℚ) :=
  atKey k fun e => (fields e, e)

/-- `HSET key lat .. lon .. ts ..`; the deadline of an existing hash is kept. -/
def hset (k : String) (lat lon : Flt) (ts : ℚ) : Cmd Unit :=
  atKey k fun e => ((), some ⟨.hash (some lat) (some lon) (some ts), e.bind (·.expireAt)⟩)

@[simp] theorem payload_str (p : Payload) (t : Option ℕ) : payload (some ⟨.str p, t⟩) = some p := rfl

@[simp] theorem members_zset (w : ScoredSet String ℚ) (t : Option ℕ) :
    members (some ⟨.zset w, t⟩) = w := rfl

@[simp] theorem members_none : members none = .empty := rfl

@[simp] theorem fields_hash (lat lon : Option Flt) (ts t) :
    fields (some ⟨.hash lat lon ts, t⟩) = (lat, lon, ts) := rfl

@[simp] theorem existsKey_apply (k : String) (db : Db) : existsKey k db = ((db k).isSome, db) :=
  atKey_read k _ db

@[simp] theorem ttl_apply (now : ℕ) (k : String) (db : Db) : ttl now k db = (remaining now (db k), db) :=
  atKey_read k _ db

@[simp] theorem get_apply (k : String) (db : Db) : get k db = (payload (db k), db) :=
  atKey_read k _ db

end Redis

end Rtace
