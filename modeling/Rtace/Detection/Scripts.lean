import Rtace.Common.Keys
import Rtace.Common.Redis

/-!
# The Lua scripts

`lua/tx_check.lua` and `lua/auth_check.lua`, command by command. Redis runs a script atomically, so a
script is one `Cmd`. `tx_check` is cut at the section comments of the source: replay, burst window, geo
velocity.
-/

namespace Rtace

open Lib Redis

/-- `replay_status`. -/
inductive ReplayStatus where
  | first
  | redelivery
  | prescored
  | replay
  deriving DecidableEq, Repr

/-- `geo_status`. -/
inductive GeoStatus where
  | baseline
  | ok
  | anomaly
  | outOfOrder
  | skipped
  deriving DecidableEq, Repr

/-- `KEYS` of `tx_check`. -/
structure TxKeys where
  replay : String
  burst : String
  session : String

/-- `ARGV` of `tx_check`. -/
structure TxArgs where
  recordRef : String
  replayTtl : ℕ
  eventId : String
  nowTs : ℚ
  burstCutoff : ℚ
  burstKeyTtl : ℕ
  lat : Flt
  lon : Flt
  sessionTtl : ℕ
  maxVelocity : ℚ
  minTime : ℚ

/-- The reply of `tx_check`. -/
structure TxReply where
  replayStatus : ReplayStatus
  storedRef : Payload
  burstCount : ℕ
  geoStatus : GeoStatus
  distance : Flt
  elapsed : Flt
  velocity : Flt
  prevLat : Option Flt
  prevLon : Option Flt

/-- `haversine_km` on finite coordinates. -/
def haversineKm (rt : Runtime) (lat1 lon1 lat2 lon2 : ℚ) : ℚ :=
  let rad := rt.pi / 180
  let dphi := (lat2 - lat1) * rad
  let dl := (lon2 - lon1) * rad
  let a := rt.sin (dphi / 2) ^ 2 +
    rt.cos (lat1 * rad) * rt.cos (lat2 * rad) * rt.sin (dl / 2) ^ 2
  let a := if a > 1 then 1 else a
  2 * 6371 * rt.asin (rt.sqrt a)

/-- `haversine_km` on floats: a non-number in any coordinate gives a non-number. -/
def haversineFlt (rt : Runtime) : Flt → Flt → Flt → Flt → Flt
  | .num lat1, .num lon1, .num lat2, .num lon2 => .num (haversineKm rt lat1 lon1 lat2 lon2)
  | _, _, _, _ => .nan

/-- The stored reference says `status` about a delivery `ref` of event `eventId`. -/
def replayVerdict (stored : Payload) (ref eventId : String) : ReplayStatus :=
  match stored with
  | .text s =>
      if s = ref then .redelivery
      else if s = decisionRef eventId then .prescored
      else .replay
  | .json _ => .replay

/-- Section 1 of `tx_check`: the replay key. -/
def replaySection (now : ℕ) (key : String) (a : TxArgs) : Cmd (ReplayStatus × Payload) := do
  let setOk ← setNxEx now key (.text a.recordRef) a.replayTtl
  if setOk then
    pure (.first, .text a.recordRef)
  else do
    let found ← get key
    let stored := found.getD (.text "")
    pure (replayVerdict stored a.recordRef a.eventId, stored)

/-- Section 2 of `tx_check`, and each half of `auth_check`: trim, add, count, refresh the key. -/
def windowSection (now : ℕ) (key : String) (cutoff score : ℚ) (member : String) (keyTtl : ℕ) :
    Cmd ℕ := do
  zremrangebyscore key cutoff
  zadd key score member
  let count ← zcard key
  expire now key keyTtl
  pure count

/-- What section 3 of `tx_check` finds. -/
structure GeoFinding where
  status : GeoStatus
  distance : Flt
  elapsed : Flt
  velocity : Flt
  prevLat : Option Flt
  prevLon : Option Flt

/-- The velocity test of section 3 against the session read. -/
def geoFinding (rt : Runtime) (a : TxArgs) : Option Flt × Option Flt × Option ℚ → GeoFinding
  | (some lat, some lon, some ts) =>
      let elapsed := a.nowTs - ts
      if elapsed < 0 then
        ⟨.outOfOrder, .num 0, .num elapsed, .num 0, some lat, some lon⟩
      else
        let dist := haversineFlt rt lat lon a.lat a.lon
        let hours := max elapsed a.minTime / 3600
        let vel := dist.divBy hours
        ⟨if vel.gt a.maxVelocity then .anomaly else .ok, dist, .num elapsed, vel, some lat, some lon⟩
  | _ => ⟨.baseline, .num 0, .num 0, .num 0, none, none⟩

/-- Section 3 of `tx_check`: only a clean transaction advances the baseline. -/
def geoSection (rt : Runtime) (now : ℕ) (key : String) (a : TxArgs) : Cmd GeoFinding := do
  let s ← hmget key
  let g := geoFinding rt a s
  if g.status = .baseline ∨ g.status = .ok then do
    hset key a.lat a.lon a.nowTs
    expire now key a.sessionTtl
  pure g

/-- `lua/tx_check.lua`. -/
def txCheck (rt : Runtime) (now : ℕ) (keys : TxKeys) (a : TxArgs) : Cmd TxReply := do
  let (status, stored) ← replaySection now keys.replay a
  if status = .prescored then
    -- the decision service already advanced burst and session state for this event
    pure ⟨status, stored, 0, .skipped, .num 0, .num 0, .num 0, none, none⟩
  else do
    let burstCount ← windowSection now keys.burst a.burstCutoff a.nowTs a.eventId a.burstKeyTtl
    let g ← geoSection rt now keys.session a
    pure ⟨status, stored, burstCount, g.status, fmt g.distance, fmt g.elapsed, fmt g.velocity,
      g.prevLat, g.prevLon⟩

/-- `lua/auth_check.lua`: both windows, user then IP. -/
def authCheck (now : ℕ) (userKey ipKey : String) (eventId : String) (nowTs cutoff : ℚ)
    (keyTtl : ℕ) : Cmd (ℕ × ℕ) := do
  let countUser ← windowSection now userKey cutoff nowTs eventId keyTtl
  let countIp ← windowSection now ipKey cutoff nowTs eventId keyTtl
  pure (countUser, countIp)

/-! ## What each section does to its key -/

theorem setNxEx_none {now : ℕ} {k : String} {v : Payload} {ttl : ℕ} {db : Db} (h : db k = none) :
    setNxEx now k v ttl db = (true, Function.update db k (some ⟨.str v, deadline now ttl⟩)) := by
  simp only [setNxEx, atKey, h]

theorem setNxEx_some {now : ℕ} {k : String} {v : Payload} {ttl : ℕ} {db : Db} {e : Entry}
    (h : db k = some e) : setNxEx now k v ttl db = (false, db) := by
  simp only [setNxEx, atKey, h]
  rw [← h, Function.update_eq_self]

/-- On an absent replay key the delivery is the first, and its reference is stored. -/
theorem replaySection_none {now : ℕ} {key : String} {a : TxArgs} {db : Db} (h : db key = none) :
    replaySection now key a db = ((.first, .text a.recordRef),
      Function.update db key (some ⟨.str (.text a.recordRef), deadline now a.replayTtl⟩)) := by
  simp only [replaySection, bind_apply, setNxEx_none h, if_true, pure_apply]

/-- On a live replay key the stored reference decides, and the key is left alone. -/
theorem replaySection_some {now : ℕ} {key : String} {a : TxArgs} {db : Db} {e : Entry}
    (h : db key = some e) :
    replaySection now key a db =
      ((replayVerdict ((payload (some e)).getD (.text "")) a.recordRef a.eventId,
        (payload (some e)).getD (.text "")), db) := by
  simp only [replaySection, bind_apply, setNxEx_some h, Bool.false_eq_true, if_false, get_apply, h,
    pure_apply]

/-- Trimming a set that loses all its members removes the key, which reads as the empty set. -/
private theorem members_zremrangebyscore (key : String) (cutoff : ℚ) (db : Db) :
    members ((zremrangebyscore key cutoff db).2 key) = (members (db key)).trim cutoff := by
  simp only [zremrangebyscore, atKey, Function.update_self]
  rcases db key with _ | ⟨v, t⟩
  · rfl
  cases v with
  | zset w =>
      by_cases hempty : (w.trim cutoff).entries.isEmpty
      · simp only [hempty, if_true, members_none, members_zset]
        ext1
        exact (List.isEmpty_iff.mp hempty).symm
      · simp only [hempty, Bool.false_eq_true, if_false, members_zset]
  | str p => rfl
  | hash lat lon ts => rfl

/-- A window section slides the window and refreshes the key. -/
theorem windowSection_eq (now : ℕ) (key : String) (cutoff score : ℚ) (member : String)
    (keyTtl : ℕ) (db : Db) :
    windowSection now key cutoff score member keyTtl db =
      (((members (db key)).slide cutoff score member).card,
        Function.update db key
          (some ⟨.zset ((members (db key)).slide cutoff score member), deadline now keyTtl⟩)) := by
  have hzrem := members_zremrangebyscore key cutoff db
  have hframe : ∀ v, Function.update (zremrangebyscore key cutoff db).2 key v
      = Function.update db key v := by
    intro v
    simp only [zremrangebyscore, atKey, Function.update_idem]
  simp only [windowSection, bind_apply, zadd, zcard, expire, atKey, Function.update_self,
    Function.update_idem, pure_apply, hzrem, hframe, members_zset, ScoredSet.slide, Option.map_some]

/-- The session the geo section leaves: a clean transaction replaces it. -/
def sessionAfter (now : ℕ) (a : TxArgs) (g : GeoFinding) (e : Option Entry) : Option Entry :=
  if g.status = .baseline ∨ g.status = .ok then
    some ⟨.hash (some a.lat) (some a.lon) (some a.nowTs), deadline now a.sessionTtl⟩
  else e

/-- The geo section scores against the session under its key and replaces it when clean. -/
theorem geoSection_eq (rt : Runtime) (now : ℕ) (key : String) (a : TxArgs) (db : Db) :
    geoSection rt now key a db =
      (geoFinding rt a (fields (db key)),
        Function.update db key
          (sessionAfter now a (geoFinding rt a (fields (db key))) (db key))) := by
  have hread : hmget key db = (fields (db key), db) := atKey_read key _ db
  simp only [geoSection, bind_apply, hread, sessionAfter]
  split
  · simp only [bind_apply, hset, expire, atKey, Function.update_self, Function.update_idem,
      Option.map_some, pure_apply]
  · simp only [pure_apply, Function.update_eq_self]

/-! ## What `tx_check` does -/

/-- The reference under a replay key. -/
def storedRef (db : Db) (key : String) : Option Payload :=
  (db key).map fun e => (payload (some e)).getD (.text "")

/-- The replay status `tx_check` gives a delivery. -/
def replayStatusOf (stored : Option Payload) (a : TxArgs) : ReplayStatus :=
  match stored with
  | none => .first
  | some p => replayVerdict p a.recordRef a.eventId

/-- The three keys of a call are different keys. -/
structure TxKeys.Distinct (keys : TxKeys) : Prop where
  replay_burst : keys.replay ≠ keys.burst
  replay_session : keys.replay ≠ keys.session
  burst_session : keys.burst ≠ keys.session

/-- The replay section keeps a stored reference, and stores its own if there is none. -/
theorem replaySection_eq (now : ℕ) (key : String) (a : TxArgs) (db : Db) :
    replaySection now key a db =
      ((replayStatusOf (storedRef db key) a, (storedRef db key).getD (.text a.recordRef)),
        Function.update db key
          (some ((db key).getD ⟨.str (.text a.recordRef), deadline now a.replayTtl⟩))) := by
  cases h : db key with
  | none =>
      rw [replaySection_none h]
      simp [storedRef, replayStatusOf, h]
  | some e =>
      rw [replaySection_some h]
      simp only [storedRef, replayStatusOf, h, Option.map_some, Option.getD_some]
      rw [← h, Function.update_eq_self]

section txCheck

variable {rt : Runtime} {now : ℕ} {keys : TxKeys} {a : TxArgs} {db : Db}

/-- On a prescored event the script answers from the replay key and changes nothing. -/
theorem txCheck_prescored (h : replayStatusOf (storedRef db keys.replay) a = .prescored) :
    txCheck rt now keys a db =
      (⟨.prescored, (storedRef db keys.replay).getD (.text a.recordRef), 0, .skipped, .num 0, .num 0,
        .num 0, none, none⟩, db) := by
  have hkey : Function.update db keys.replay
      (some ((db keys.replay).getD ⟨.str (.text a.recordRef), deadline now a.replayTtl⟩)) = db := by
    cases hdb : db keys.replay with
    | none => simp [storedRef, hdb, replayStatusOf] at h
    | some e => rw [Option.getD_some, ← hdb, Function.update_eq_self]
  simp only [txCheck, bind_apply, replaySection_eq, h, if_true, pure_apply, hkey]

/-- On any other event the script stores the reference, slides the window and scores the session. -/
theorem txCheck_scored (hd : keys.Distinct)
    (h : replayStatusOf (storedRef db keys.replay) a ≠ .prescored) :
    txCheck rt now keys a db =
      let window := (members (db keys.burst)).slide a.burstCutoff a.nowTs a.eventId
      let g := geoFinding rt a (fields (db keys.session))
      (⟨replayStatusOf (storedRef db keys.replay) a, (storedRef db keys.replay).getD (.text a.recordRef),
          window.card, g.status, fmt g.distance, fmt g.elapsed, fmt g.velocity, g.prevLat, g.prevLon⟩,
        Function.update (Function.update (Function.update db
          keys.replay (some ((db keys.replay).getD ⟨.str (.text a.recordRef), deadline now a.replayTtl⟩)))
          keys.burst (some ⟨.zset window, deadline now a.burstKeyTtl⟩))
          keys.session (sessionAfter now a g (db keys.session))) := by
  simp only [txCheck, bind_apply, replaySection_eq, if_neg h, windowSection_eq, geoSection_eq, pure_apply,
    Function.update_of_ne hd.replay_burst.symm, Function.update_of_ne hd.replay_session.symm,
    Function.update_of_ne hd.burst_session.symm]

theorem txCheck_replayStatus (hd : keys.Distinct) :
    (txCheck rt now keys a db).1.replayStatus = replayStatusOf (storedRef db keys.replay) a := by
  by_cases h : replayStatusOf (storedRef db keys.replay) a = .prescored
  · rw [txCheck_prescored h, h]
  · rw [txCheck_scored hd h]

/-- The reference of the reply is the stored one, or its own if there is none. -/
theorem txCheck_storedRef (hd : keys.Distinct) :
    (txCheck rt now keys a db).1.storedRef = (storedRef db keys.replay).getD (.text a.recordRef) := by
  by_cases h : replayStatusOf (storedRef db keys.replay) a = .prescored
  · rw [txCheck_prescored h]
  · rw [txCheck_scored hd h]

/-- The script leaves the replay key as it finds it, and writes it if there is none. -/
theorem txCheck_replay (rt : Runtime) (now : ℕ) (a : TxArgs) (db : Db) (hd : keys.Distinct) :
    (txCheck rt now keys a db).2 keys.replay
      = some ((db keys.replay).getD ⟨.str (.text a.recordRef), deadline now a.replayTtl⟩) := by
  by_cases h : replayStatusOf (storedRef db keys.replay) a = .prescored
  · rw [txCheck_prescored h]
    cases hdb : db keys.replay with
    | none => simp [storedRef, hdb, replayStatusOf] at h
    | some e => exact hdb
  · rw [txCheck_scored hd h]
    simp only [Function.update_of_ne hd.replay_session, Function.update_of_ne hd.replay_burst,
      Function.update_self]

/-- The first delivery's reference stays. -/
theorem storedRef_txCheck (rt : Runtime) (now : ℕ) (a : TxArgs) (db : Db) (hd : keys.Distinct) :
    storedRef (txCheck rt now keys a db).2 keys.replay
      = some ((storedRef db keys.replay).getD (.text a.recordRef)) := by
  rw [storedRef, txCheck_replay _ _ _ _ hd, storedRef]
  cases db keys.replay with
  | none => rfl
  | some e => rfl

end txCheck

/-! ## Footprints -/

theorem footprint_replaySection (now : ℕ) (key : String) (a : TxArgs) :
    Footprint {key} (replaySection now key a) := by
  refine (Footprint.atKey key _).bind fun setOk => ?_
  split
  · exact .pure _ _
  · exact (Footprint.atKey key _).bind fun _ => .pure _ _

theorem footprint_windowSection (now : ℕ) (key : String) (cutoff score : ℚ) (member : String)
    (keyTtl : ℕ) : Footprint {key} (windowSection now key cutoff score member keyTtl) :=
  (Footprint.atKey key _).bind fun _ => (Footprint.atKey key _).bind fun _ =>
    (Footprint.atKey key _).bind fun _ => (Footprint.atKey key _).bind fun _ => .pure _ _

theorem footprint_geoSection (rt : Runtime) (now : ℕ) (key : String) (a : TxArgs) :
    Footprint {key} (geoSection rt now key a) := by
  refine (Footprint.atKey key _).bind fun s => ?_
  dsimp only
  split
  · exact (Footprint.atKey key _).bind fun _ => (Footprint.atKey key _).bind fun _ => .pure _ _
  · exact .pure _ _

/-- `tx_check` touches the replay, burst and session keys only. -/
theorem footprint_txCheck (rt : Runtime) (now : ℕ) (keys : TxKeys) (a : TxArgs) :
    Footprint {keys.replay, keys.burst, keys.session} (txCheck rt now keys a) := by
  refine ((footprint_replaySection now keys.replay a).mono (by simp)).bind fun r => ?_
  dsimp only
  split
  · exact .pure _ _
  · exact ((footprint_windowSection _ _ _ _ _ _).mono (by simp)).bind fun _ =>
      ((footprint_geoSection _ _ _ _).mono (by simp)).bind fun _ => .pure _ _

/-- `auth_check` touches its two window keys only. -/
theorem footprint_authCheck (now : ℕ) (userKey ipKey eventId : String) (nowTs cutoff : ℚ)
    (keyTtl : ℕ) : Footprint {userKey, ipKey} (authCheck now userKey ipKey eventId nowTs cutoff keyTtl) :=
  ((footprint_windowSection _ _ _ _ _ _).mono (by simp)).bind fun _ =>
    ((footprint_windowSection _ _ _ _ _ _).mono (by simp)).bind fun _ => .pure _ _

end Rtace
