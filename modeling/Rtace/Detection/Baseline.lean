import Mathlib.Data.List.Chain
import Rtace.Lib.Transition
import Rtace.Detection.SingleRecord

/-!
# The trusted baseline

What the session of one user holds over whole runs of `tx_check`. The session is the place and time of the
last transaction that was found clean, and each of these was within reach of the one before it. A coordinate
that is not a number defeats the comparison the check rests on.
-/

namespace Rtace

open Lib Redis

/-- A place and a time, as the session hash holds them. -/
structure Fix where
  lat : Flt
  lon : Flt
  ts : ℚ

/-- Both coordinates are numbers. -/
def Fix.Finite (s : Fix) : Prop := (∃ q, s.lat = .num q) ∧ ∃ q, s.lon = .num q

/-- The fields of a session hash that holds this fix, or of no session. -/
def Fix.session : Option Fix → Option Flt × Option Flt × Option ℚ
  | some s => (some s.lat, some s.lon, some s.ts)
  | none => (none, none, none)

/-- A call of `tx_check` for some user: the server time, the payload hash and the arguments. -/
structure UserCall where
  now : ℕ
  hash : String
  args : TxArgs

namespace UserCall

def keys (c : UserCall) (userId : String) : TxKeys := ⟨replayKey c.hash, burstKey userId, sessionKey userId⟩

/-- Where and when the transaction of the call took place. -/
def fix (c : UserCall) : Fix := ⟨c.args.lat, c.args.lon, c.args.nowTs⟩

theorem keys_distinct (c : UserCall) (userId : String) : (c.keys userId).Distinct where
  replay_burst := append_ne_of_incomparable (p := replayKeyPrefix) (q := burstKeyPrefix) (by decide) _ _
  replay_session := append_ne_of_incomparable (p := replayKeyPrefix) (q := sessionKeyPrefix) (by decide) _ _
  burst_session := append_ne_of_incomparable (p := burstKeyPrefix) (q := sessionKeyPrefix) (by decide) _ _

end UserCall

/-- One step as the session of `userId` sees it: a script call for the user, with its reply, or anything
that leaves the session alone. Times, references and payloads are arbitrary. -/
inductive SessionStep (rt : Runtime) (userId : String) (maxVelocity : ℚ) (db : Db) :
    Option (UserCall × TxReply) → Db → Prop
  | call (c : UserCall) (hmax : c.args.maxVelocity = maxVelocity) (hmin : c.args.minTime = minTimeSeconds) :
      SessionStep rt userId maxVelocity db (some (c, (txCheck rt c.now (c.keys userId) c.args db).1))
        (txCheck rt c.now (c.keys userId) c.args db).2
  | other (db' : Db) (h : db' (sessionKey userId) = db (sessionKey userId)) :
      SessionStep rt userId maxVelocity db none db'

/-- The call the detection engine makes for a transaction is such a step. -/
theorem sessionStep_tx (rt : Runtime) (cfg : RedisConfig) (now : ℕ) (tx : TransactionEvent) (ref : String)
    (ts : ℚ) (db : Db) :
    SessionStep rt tx.userId cfg.geoMaxVelocityKmh db
      (some (⟨now, tx.replayHash rt, txArgs cfg tx ref ts⟩,
        (txCheck rt now (txKeys rt tx) (txArgs cfg tx ref ts) db).1))
      (txCheck rt now (txKeys rt tx) (txArgs cfg tx ref ts) db).2 :=
  .call ⟨now, tx.replayHash rt, txArgs cfg tx ref ts⟩ rfl rfl

/-- The fix of a call whose transaction was found clean. -/
def trustedFix : Option (UserCall × TxReply) → Option Fix
  | some (c, r) => if r.geoStatus = .baseline ∨ r.geoStatus = .ok then some c.fix else none
  | none => none

/-- The fixes a run has come to trust, oldest first. -/
def trusted (labels : List (Option (UserCall × TxReply))) : List Fix := labels.filterMap trustedFix

/-- The speed of travel between two fixes as the script scores it. -/
def impliedSpeed (rt : Runtime) (s s' : Fix) : Flt :=
  (haversineFlt rt s.lat s.lon s'.lat s'.lon).divBy (max (s'.ts - s.ts) minTimeSeconds / 3600)

/-- A later fix that the script does not object to. -/
structure Follows (rt : Runtime) (maxVelocity : ℚ) (s s' : Fix) : Prop where
  later : s.ts ≤ s'.ts
  unflagged : (impliedSpeed rt s s').gt maxVelocity = false

/-- The implied speed is a number, and at most the bound. -/
def Plausible (rt : Runtime) (maxVelocity : ℚ) (s s' : Fix) : Prop :=
  ∃ x, impliedSpeed rt s s' = .num x ∧ x ≤ maxVelocity

/-! ## One call -/

section

variable {rt : Runtime} {userId : String} {maxVelocity : ℚ} {db db' : Db} {c : UserCall} {r : TxReply}

/-- Against a session, only a fix that follows it is clean. -/
theorem geoFinding_follows {s : Fix} (hmax : c.args.maxVelocity = maxVelocity)
    (hmin : c.args.minTime = minTimeSeconds)
    (h : (geoFinding rt c.args (Fix.session (some s))).status = .baseline ∨
      (geoFinding rt c.args (Fix.session (some s))).status = .ok) :
    Follows rt maxVelocity s c.fix := by
  simp only [Fix.session, geoFinding] at h
  split at h
  · simp at h
  rename_i helapsed
  refine ⟨sub_nonneg.mp (not_lt.mp helapsed), ?_⟩
  rw [← hmax, impliedSpeed, ← hmin]
  by_contra hflag
  have hflag : ((haversineFlt rt s.lat s.lon c.args.lat c.args.lon).divBy
      (max (c.args.nowTs - s.ts) c.args.minTime / 3600)).gt c.args.maxVelocity = true := by
    simpa [UserCall.fix] using hflag
  simp [hflag] at h

/-- A call either moves the session to its own fix, which then follows the session it found, or leaves the
session alone. -/
theorem SessionStep.cases {l : Option (UserCall × TxReply)} (h : SessionStep rt userId maxVelocity db l db') :
    (∃ s', trustedFix l = some s' ∧ fields (db' (sessionKey userId)) = Fix.session (some s') ∧
      ∀ s, fields (db (sessionKey userId)) = Fix.session (some s) → Follows rt maxVelocity s s') ∨
    (trustedFix l = none ∧ db' (sessionKey userId) = db (sessionKey userId)) := by
  cases h with
  | other db' h => exact Or.inr ⟨rfl, h⟩
  | call c hmax hmin =>
      by_cases hpre : replayStatusOf (storedRef db (c.keys userId).replay) c.args = .prescored
      · rw [txCheck_prescored hpre]
        exact Or.inr ⟨rfl, rfl⟩
      rw [txCheck_scored (c.keys_distinct userId) hpre]
      have hkey : (c.keys userId).session = sessionKey userId := rfl
      simp only [hkey, Function.update_self, trustedFix, sessionAfter]
      by_cases hclean : (geoFinding rt c.args (fields (db (sessionKey userId)))).status = .baseline ∨
          (geoFinding rt c.args (fields (db (sessionKey userId)))).status = .ok
      · refine Or.inl ⟨c.fix, if_pos hclean, ?_, fun s hs => ?_⟩
        · rw [if_pos hclean, fields_hash]
          rfl
        · rw [hs] at hclean
          exact geoFinding_follows hmax hmin hclean
      · exact Or.inr ⟨if_neg hclean, if_neg hclean⟩

/-- A call that is not found clean, and any prescored one, leaves the session alone, its lifetime included. -/
theorem SessionStep.kept (h : SessionStep rt userId maxVelocity db (some (c, r)) db')
    (hr : r.geoStatus = .anomaly ∨ r.geoStatus = .outOfOrder ∨ r.replayStatus = .prescored) :
    db' (sessionKey userId) = db (sessionKey userId) := by
  have hflagged : r.geoStatus = .anomaly ∨ r.geoStatus = .outOfOrder ∨ r.geoStatus = .skipped := by
    rcases hr with hr | hr | hr
    · exact Or.inl hr
    · exact Or.inr (Or.inl hr)
    cases h with
    | call c hmax hmin =>
        rw [txCheck_replayStatus (c.keys_distinct userId)] at hr
        rw [txCheck_prescored hr]
        exact Or.inr (Or.inr rfl)
  obtain ⟨s', hs', -, -⟩ | ⟨-, hkept⟩ := h.cases
  · rcases hflagged with hr | hr | hr <;> simp [trustedFix, hr] at hs'
  · exact hkept

/-- The session is the last trusted fix, and each trusted fix follows the one before it. -/
structure Baseline (rt : Runtime) (userId : String) (maxVelocity : ℚ)
    (labels : List (Option (UserCall × TxReply))) (db : Db) : Prop where
  session : fields (db (sessionKey userId)) = Fix.session (trusted labels).getLast?
  chain : (trusted labels).IsChain (Follows rt maxVelocity)

theorem trusted_snoc (labels : List (Option (UserCall × TxReply))) (l : Option (UserCall × TxReply)) :
    trusted (labels ++ [l]) = trusted labels ++ (trustedFix l).toList := by
  cases h : trustedFix l <;> simp [trusted, h]

/-- The step lemma. -/
theorem Baseline.step {labels : List (Option (UserCall × TxReply))} {l : Option (UserCall × TxReply)}
    (hb : Baseline rt userId maxVelocity labels db) (h : SessionStep rt userId maxVelocity db l db') :
    Baseline rt userId maxVelocity (labels ++ [l]) db' := by
  obtain ⟨s', hs', hsession, hfollows⟩ | ⟨hnone, hkept⟩ := h.cases
  · constructor
    · rw [hsession, trusted_snoc, hs', Option.toList_some, List.getLast?_concat]
    · rw [trusted_snoc, hs', Option.toList_some, List.isChain_append]
      refine ⟨hb.chain, List.isChain_singleton s', fun s hs y hy => ?_⟩
      obtain rfl : s' = y := by simpa using hy
      refine hfollows s ?_
      rw [hb.session, Option.mem_def.mp hs]
  · constructor
    · rw [hkept, hb.session, trusted_snoc, hnone, Option.toList_none, List.append_nil]
    · rw [trusted_snoc, hnone, Option.toList_none, List.append_nil]
      exact hb.chain

/-- From no session on, every run leads to a baseline. -/
theorem baseline_of_run {labels : List (Option (UserCall × TxReply))} (hstart : db (sessionKey userId) = none)
    (hrun : Run (SessionStep rt userId maxVelocity) db labels db') :
    Baseline rt userId maxVelocity labels db' := by
  refine hrun.history ⟨?_, List.isChain_nil⟩ fun _ _ _ _ hb hstep => hb.step hstep
  rw [hstart]
  rfl

/-! ## Finite coordinates -/

/-- Every call of the run is about a place with finite coordinates. -/
def FiniteCalls (labels : List (Option (UserCall × TxReply))) : Prop :=
  ∀ c r, some (c, r) ∈ labels → c.fix.Finite

theorem FiniteCalls.trusted {labels : List (Option (UserCall × TxReply))} (h : FiniteCalls labels) :
    ∀ s ∈ trusted labels, s.Finite := by
  intro s hs
  obtain ⟨l, hl, hfix⟩ := List.mem_filterMap.mp hs
  rcases l with _ | ⟨c, r⟩
  · cases hfix
  · simp only [trustedFix, Option.ite_none_right_eq_some, Option.some.injEq] at hfix
    rw [← hfix.2]
    exact h c r hl

/-- The distance between places with finite coordinates is a number. -/
theorem Fix.Finite.distance {s s' : Fix} (hs : s.Finite) (hs' : s'.Finite) :
    ∃ d, haversineFlt rt s.lat s.lon s'.lat s'.lon = .num d := by
  obtain ⟨⟨lat, hlat⟩, ⟨lon, hlon⟩⟩ := hs
  obtain ⟨⟨lat', hlat'⟩, ⟨lon', hlon'⟩⟩ := hs'
  rw [hlat, hlon, hlat', hlon']
  exact ⟨_, rfl⟩

/-- On a distance that is a number the script's comparison says what it is meant to say. -/
theorem unflagged_iff {s s' : Fix} {d : ℚ} (hd : haversineFlt rt s.lat s.lon s'.lat s'.lon = .num d) :
    (impliedSpeed rt s s').gt maxVelocity = false ↔ d ≤ maxVelocity * max (s'.ts - s.ts) 1 / 3600 := by
  have hhours : 0 < max (s'.ts - s.ts) 1 / 3600 := by
    have : (1 : ℚ) ≤ max (s'.ts - s.ts) 1 := le_max_right _ _
    positivity
  rw [impliedSpeed, hd, Flt.divBy, Flt.gt, minTimeSeconds, decide_eq_false_iff_not, not_lt, div_le_iff₀ hhours,
    mul_div_assoc]

theorem passable_iff {s s' : Fix} {d : ℚ} (hd : haversineFlt rt s.lat s.lon s'.lat s'.lon = .num d) :
    Plausible rt maxVelocity s s' ↔ d ≤ maxVelocity * max (s'.ts - s.ts) 1 / 3600 := by
  rw [← unflagged_iff hd, Plausible, impliedSpeed, hd]
  simp [Flt.divBy, Flt.gt]

/-- Two possible hops of at least the minimum time are one possible journey, by the triangle inequality. -/
theorem Plausible.trans {s m s' : Fix} (hs : s.Finite) (hm : m.Finite) (hs' : s'.Finite)
    (htriangle : ∀ lat₁ lon₁ lat₂ lon₂ lat₃ lon₃, haversineKm rt lat₁ lon₁ lat₃ lon₃
      ≤ haversineKm rt lat₁ lon₁ lat₂ lon₂ + haversineKm rt lat₂ lon₂ lat₃ lon₃)
    (hfirst : s.ts + 1 ≤ m.ts) (hsecond : m.ts + 1 ≤ s'.ts) (h : Plausible rt maxVelocity s m)
    (h' : Plausible rt maxVelocity m s') : Plausible rt maxVelocity s s' := by
  obtain ⟨d₁, hd₁⟩ := hs.distance hm
  obtain ⟨d₂, hd₂⟩ := hm.distance hs'
  obtain ⟨d, hd⟩ := hs.distance hs'
  rw [passable_iff hd₁, max_eq_left (by linarith)] at h
  rw [passable_iff hd₂, max_eq_left (by linarith)] at h'
  rw [passable_iff hd, max_eq_left (by linarith)]
  have hsum : d ≤ d₁ + d₂ := by
    obtain ⟨⟨lat, hlat⟩, ⟨lon, hlon⟩⟩ := hs
    obtain ⟨⟨lat', hlat'⟩, ⟨lon', hlon'⟩⟩ := hm
    obtain ⟨⟨lat'', hlat''⟩, ⟨lon'', hlon''⟩⟩ := hs'
    simp only [hlat, hlon, hlat', hlon', hlat'', hlon'', haversineFlt, Flt.num.injEq] at hd₁ hd₂ hd
    rw [← hd₁, ← hd₂, ← hd]
    exact htriangle lat lon lat' lon' lat'' lon''
  calc d ≤ maxVelocity * (m.ts - s.ts) / 3600 + maxVelocity * (s'.ts - m.ts) / 3600 := by linarith
    _ = maxVelocity * (s'.ts - s.ts) / 3600 := by ring

end

/-- From no session on, over any sequence of calls with finite coordinates: the session is the fix of the
last clean transaction, its time never decreases, each clean transaction is within reach of the one before
it, and a call that is flagged, late or prescored leaves the session alone. -/
theorem session_trusted_chain {rt : Runtime} {userId : String} {maxVelocity : ℚ} {db db' : Db}
    {labels : List (Option (UserCall × TxReply))} (hstart : db (sessionKey userId) = none)
    (hfinite : FiniteCalls labels) (hrun : Run (SessionStep rt userId maxVelocity) db labels db') :
    fields (db' (sessionKey userId)) = Fix.session (trusted labels).getLast? ∧
    (trusted labels).Pairwise (fun s s' => s.ts ≤ s'.ts) ∧
    (trusted labels).IsChain (fun s s' => ∃ d, haversineFlt rt s.lat s.lon s'.lat s'.lon = .num d ∧
      d ≤ maxVelocity * max (s'.ts - s.ts) 1 / 3600) ∧
    ∀ c r db'', SessionStep rt userId maxVelocity db' (some (c, r)) db'' →
      r.geoStatus = .anomaly ∨ r.geoStatus = .outOfOrder ∨ r.replayStatus = .prescored →
      db'' (sessionKey userId) = db' (sessionKey userId) := by
  have hbase := baseline_of_run hstart hrun
  refine ⟨hbase.session, ?_, ?_, fun c r db'' hstep hr => hstep.kept hr⟩
  · have hlater : (trusted labels).IsChain (fun s s' => s.ts ≤ s'.ts) := hbase.chain.imp fun _ _ h => h.later
    have : IsTrans Fix (fun s s' => s.ts ≤ s'.ts) := ⟨fun _ _ _ h h' => h.trans h'⟩
    exact List.isChain_iff_pairwise.mp hlater
  · refine hbase.chain.imp_of_mem_imp fun s s' hs hs' h => ?_
    obtain ⟨d, hd⟩ := (hfinite.trusted s hs).distance (hfinite.trusted s' hs')
    exact ⟨d, hd, (unflagged_iff hd).mp h.unflagged⟩

namespace Sample

/-- The sample transaction on New Year's Day at full hours, somewhere on the equator. -/
def placed (eventId : String) (hour : Fin 24) (longitude : Flt) : TransactionEvent :=
  { tx eventId with
    timestamp := ⟨2024, 1, 1, hour, 0, 0, 0, some 0, by refine ⟨?_, ?_, ?_, ?_, ?_, ?_, hour.isLt, ?_⟩ <;> decide⟩
    longitude := longitude }

/-- The libraries on these documents, with trigonometry at `0` and at a right angle: the distance from a
place to itself and to its antipode. -/
def antipodes : Runtime :=
  { runtime with
    validateTx := fun
      | .obj fs => match fs.lookup "event_id", fs.lookup "timestamp", fs.lookup "longitude" with
          | some (.str eventId), some (.str "2024-01-01T00:00:00+00:00"), some (.num x) => some (placed eventId 0 x)
          | some (.str eventId), some (.str "2024-01-01T01:00:00+00:00"), some (.num x) => some (placed eventId 1 x)
          | some (.str eventId), some (.str "2024-01-01T02:00:00+00:00"), some (.num x) => some (placed eventId 2 x)
          | _, _, _ => none
      | _ => none
    sha256 := fun
      | "u1|12.50|shop|2024-01-01T01:00:00+00:00|NYC" =>
          "859c8148a64a2869999fac6a4268b2de40c31b23483e547479b3f46e960f9b60"
      | "u1|12.50|shop|2024-01-01T02:00:00+00:00|NYC" =>
          "1faaff5304c0d07ec7dafe506ecc298e8c168541cea8131dec03614db74a9da6"
      | "u1|12.50|shop|2024-01-01T23:00:00+00:00|NYC" =>
          "3455654dcebae6b3ff0d2481f28742cd479c53694ef4b88b75a673646eb0a6f7"
      | payload => runtime.sha256 payload
    sin := fun x => if x = 0 then 0 else 1
    asin := fun x => if x = 0 then 0 else 355 / 226 }

/-- The delivery of a transaction at some offset. -/
def leg (tx : TransactionEvent) (offset : ℕ) (db : Db) : TxReply × Db :=
  txCheck antipodes 0 (txKeys antipodes tx) (txArgs {} tx (recordRef "tx-events" 0 offset)
    ((tx.timestamp.timestamp antipodes).toOption.getD 0)) db

/-- The label of that delivery. -/
def legCall (tx : TransactionEvent) (offset : ℕ) : UserCall :=
  ⟨0, tx.replayHash antipodes, txArgs {} tx (recordRef "tx-events" 0 offset)
    ((tx.timestamp.timestamp antipodes).toOption.getD 0)⟩

theorem leg_step (eventId : String) (hour : Fin 24) (x : Flt) (offset : ℕ) (db : Db) :
    SessionStep antipodes "u1" 900 db
      (some (legCall (placed eventId hour x) offset, (leg (placed eventId hour x) offset db).1))
      (leg (placed eventId hour x) offset db).2 :=
  sessionStep_tx antipodes {} 0 (placed eventId hour x) _ _ db

/-- Home at midnight, the antipode at one, and the antipode at eleven in the evening. -/
def home : TransactionEvent := placed "e1" 0 (.num 0)

def abroadEarly : TransactionEvent := placed "e2" 1 (.num 180)

def abroadLate : TransactionEvent := placed "e3" 23 (.num 180)

def atHome : Db := (leg home 0 fun _ => none).2

def stillHome : Db := (leg abroadEarly 1 atHome).2

/-- The three deliveries in order. -/
def flight : List (Option (UserCall × TxReply)) :=
  [some (legCall home 0, (leg home 0 fun _ => none).1), some (legCall abroadEarly 1, (leg abroadEarly 1 atHome).1),
    some (legCall abroadLate 2, (leg abroadLate 2 stillHome).1)]

theorem run_flight : Run (SessionStep antipodes "u1" 900) (fun _ => none) flight (leg abroadLate 2 stillHome).2 :=
  .cons (leg_step ..) (.cons (leg_step ..) (.single (leg_step ..)))

theorem finite_flight : FiniteCalls flight := by
  intro c r h
  simp only [flight, List.mem_cons, Option.some.injEq, Prod.mk.injEq, List.not_mem_nil, or_false] at h
  rcases h with ⟨rfl, -⟩ | ⟨rfl, -⟩ | ⟨rfl, -⟩
  · exact ⟨⟨0, rfl⟩, 0, rfl⟩
  · exact ⟨⟨0, rfl⟩, 180, rfl⟩
  · exact ⟨⟨0, rfl⟩, 180, rfl⟩

end Sample

/-- A flight that is too fast at one o'clock and possible at eleven: the session moves once. -/
theorem session_trusted_chain_flight :
    (trusted Sample.flight).map Fix.ts = [1704067200, 1704150000] ∧
      fields ((Sample.leg Sample.abroadLate 2 Sample.stillHome).2 (sessionKey "u1"))
        = Fix.session (trusted Sample.flight).getLast? :=
  ⟨by decide +kernel, (session_trusted_chain rfl Sample.finite_flight Sample.run_flight).1⟩

namespace Sample

/-- A transaction at one o'clock whose longitude is not a number, and the antipode at two. -/
def lost : TransactionEvent := placed "e2" 1 .nan

end Sample

end Rtace
