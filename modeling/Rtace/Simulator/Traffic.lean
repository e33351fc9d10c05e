import Mathlib.Data.Nat.Cast.Order.Ring
import Rtace.Detection.Pipeline
import Rtace.Lib.Transition

/-!
# The traffic of the simulator

`generate_events` of `simulator/transaction_simulator.py`, one iteration at a time, with what it takes from the random
generator, `uuid4` and the clock as its input. Attacks come on schedule, a replay repeats the last normal transaction
of its user, and everything else stays at home.
-/

namespace Rtace.Simulator

open Lib

/-- The keys of `LOCATION_COORDS`. -/
inductive Location where
  | usCa
  | usNy
  | usTx
  | ukLon
  | deBer
  | frPar
  | jpTyo
  | auSyd
  | usFl
  | usWa
  deriving DecidableEq

namespace Location

def code : Location → String
  | usCa => "US-CA"
  | usNy => "US-NY"
  | usTx => "US-TX"
  | ukLon => "UK-LON"
  | deBer => "DE-BER"
  | frPar => "FR-PAR"
  | jpTyo => "JP-TYO"
  | auSyd => "AU-SYD"
  | usFl => "US-FL"
  | usWa => "US-WA"

/-- Latitude and longitude. -/
def coords : Location → ℚ × ℚ
  | usCa => (37, -122)
  | usNy => (407 / 10, -74)
  | usTx => (298 / 10, -954 / 10)
  | ukLon => (515 / 10, -1 / 10)
  | deBer => (525 / 10, 134 / 10)
  | frPar => (489 / 10, 24 / 10)
  | jpTyo => (357 / 10, 1397 / 10)
  | auSyd => (-339 / 10, 1512 / 10)
  | usFl => (258 / 10, -802 / 10)
  | usWa => (476 / 10, -1223 / 10)

end Location

def merchants : List String :=
  ["Amazon", "Stripe", "PayPal", "Walmart", "Target", "Best Buy", "Netflix", "Spotify", "Uber", "Lyft"]

def sampleIps : List String :=
  ["198.51.100.10", "198.51.100.11", "203.0.113.50", "192.0.2.100", "192.0.2.200"]

def stuffingUserIp : String := "203.0.113.99"

def stuffingAttackIp : String := "198.51.100.250"

def burstSize : ℕ := 25

def stuffingUserFails : ℕ := 12

def stuffingIpFails : ℕ := 52

/-- `SimulatorSettings`, as far as the events depend on them. -/
structure SimulatorSettings where
  numUsers : ℕ := 100
  replayProbability : ℚ := 5 / 100
  impossibleTravelProbability : ℚ := 2 / 100
  authFailProbability : ℚ := 10 / 100
  burstEvery : ℤ := 200
  stuffingUserEvery : ℤ := 150
  stuffingIpEvery : ℤ := 400

/-- The tags of `Emitted`. -/
inductive Scenario where
  | normal
  | replay
  | impossibleTravel
  | fraudBurst
  | stuffingUser
  | stuffingIp
  | sleep
  deriving DecidableEq

structure Emitted where
  event : Option Event
  scenario : Scenario

/-- What `make_transaction` takes from outside. -/
structure TxDraw where
  eventId : String
  amount : ℚ
  merchant : String
  timestamp : Datetime

/-- `make_transaction`. -/
def makeTransaction (d : TxDraw) (userId : String) (location : Location) : TransactionEvent where
  eventId := d.eventId
  userId := userId
  amount := .num d.amount
  merchant := d.merchant
  timestamp := d.timestamp
  location := location.code
  latitude := .num location.coords.1
  longitude := .num location.coords.2

/-- What `make_auth` takes from outside. -/
structure AuthDraw where
  eventId : String
  timestamp : Datetime

/-- `make_auth`. -/
def makeAuth (d : AuthDraw) (userId ipAddress : String) (success : Bool) : AuthEvent where
  eventId := d.eventId
  userId := userId
  ipAddress := ipAddress
  success := success
  timestamp := d.timestamp

def userIds (settings : SimulatorSettings) : List String :=
  (List.range settings.numUsers).map fun i => "user_" ++ toString (i + 1)

/-- What an iteration takes from outside: the users and addresses it chooses, its rolls, and what goes into the
events. -/
structure Draws where
  userId : String
  roll : ℚ
  away : Location
  tx : TxDraw
  auUser : String
  authRoll : ℚ
  authIp : String
  auth : AuthDraw
  burstVictim : String
  burst : ℕ → TxDraw
  stuffingVictim : String
  stuffingUser : ℕ → AuthDraw
  stuffingIp : ℕ → AuthDraw

/-- The generator between two iterations: `last_tx` and `iteration`. -/
structure Generator where
  lastTx : String → Option TransactionEvent := fun _ => none
  iteration : ℕ := 0

section

variable (settings : SimulatorSettings) (home : String → Location)

/-- The transaction of an iteration: a replay, impossible travel, or normal. -/
def transactionOf (d : Draws) (g : Generator) : Emitted × Generator :=
  if d.roll < settings.replayProbability ∧ (g.lastTx d.userId).isSome then
    (⟨(g.lastTx d.userId).map Event.tx, .replay⟩, g)
  else if settings.replayProbability ≤ d.roll ∧
      d.roll < settings.replayProbability + settings.impossibleTravelProbability then
    (⟨some (.tx (makeTransaction d.tx d.userId d.away)), .impossibleTravel⟩, g)
  else
    let tx := makeTransaction d.tx d.userId (home d.userId)
    (⟨some (.tx tx), .normal⟩, { g with lastTx := Function.update g.lastTx d.userId (some tx) })

/-- The login of an iteration. -/
def authOf (d : Draws) : Emitted :=
  ⟨some (.auth (makeAuth d.auth d.auUser d.authIp (settings.authFailProbability ≤ d.authRoll))), .normal⟩

/-- `every and iteration % every == 0`. -/
def scheduled (every : ℤ) (iteration : ℕ) : Bool := every ≠ 0 ∧ (iteration : ℤ) % every = 0

def burstOf (d : Draws) : List Emitted :=
  (List.range burstSize).map fun i =>
    ⟨some (.tx (makeTransaction (d.burst i) d.burstVictim (home d.burstVictim))), .fraudBurst⟩

def stuffingUserOf (d : Draws) : List Emitted :=
  (List.range stuffingUserFails).map fun i =>
    ⟨some (.auth (makeAuth (d.stuffingUser i) d.stuffingVictim stuffingUserIp false)), .stuffingUser⟩

/-- On an empty list of users `rng.choice` has raised before. -/
def stuffingIpOf (d : Draws) : List Emitted :=
  (List.range stuffingIpFails).map fun i =>
    ⟨some (.auth (makeAuth (d.stuffingIp i) ((userIds settings).getD (i % (userIds settings).length) "")
      stuffingAttackIp false)), .stuffingIp⟩

/-- The scheduled scenarios of an iteration. -/
def scenariosOf (d : Draws) (iteration : ℕ) : List Emitted :=
  (if scheduled settings.burstEvery iteration then burstOf home d else []) ++
    (if scheduled settings.stuffingUserEvery iteration then stuffingUserOf d else []) ++
    if scheduled settings.stuffingIpEvery iteration then stuffingIpOf settings d else []

/-- One turn of the loop of `generate_events`. -/
def iterate (d : Draws) (g : Generator) : List Emitted × Generator :=
  let g := { g with iteration := g.iteration + 1 }
  let out := transactionOf settings home d g
  (out.1 :: authOf settings d :: scenariosOf settings home d g.iteration ++ [⟨none, .sleep⟩], out.2)

/-- `generate_events`, as far as it is consumed. -/
def generateEvents : List Draws → Generator → List Emitted × Generator
  | [], g => ([], g)
  | d :: ds, g =>
      let out := iterate settings home d g
      let rest := generateEvents ds out.2
      (out.1 ++ rest.1, rest.2)

end

/-! ## The schedule -/

section

variable {settings : SimulatorSettings} {home : String → Location} {d : Draws} {g : Generator}

/-- Python's `%` by a negative number, and by zero behind `and`, is divisibility as well. -/
theorem scheduled_succ (every : ℤ) (n : ℕ) : scheduled every (n + 1) = true ↔ every.natAbs ∣ n + 1 := by
  simp only [scheduled, decide_eq_true_eq]
  rw [← Int.dvd_iff_emod_eq_zero, ← Int.natAbs_dvd_natAbs, Int.natAbs_natCast]
  constructor
  · exact And.right
  · refine fun h => ⟨?_, h⟩
    rintro rfl
    simp at h

/-- A scenario of a schedule counts once more in every iteration that is due. -/
theorem scheduled_mul (every : ℤ) (size n : ℕ) :
    (if scheduled every (n + 1) then size else 0) + size * (n / every.natAbs) = size * ((n + 1) / every.natAbs) := by
  rw [Nat.succ_div, mul_add, add_comm]
  by_cases h : every.natAbs ∣ n + 1
  · simp [h, (scheduled_succ every n).mpr h]
  · have hnot : scheduled every (n + 1) = false := by
      rw [← Bool.not_eq_true, scheduled_succ]
      exact h
    simp [h, hnot]

/-- How often a tag occurs. -/
def count (scenario : Scenario) (es : List Emitted) : ℕ := es.countP (·.scenario = scenario)

theorem count_append (scenario : Scenario) (es es' : List Emitted) :
    count scenario (es ++ es') = count scenario es + count scenario es' :=
  List.countP_append

theorem count_cons (scenario : Scenario) (e : Emitted) (es : List Emitted) :
    count scenario (e :: es) = count scenario es + if e.scenario = scenario then 1 else 0 := by
  simp [count, List.countP_cons]

theorem count_map (scenario scenario' : Scenario) (n : ℕ) (f : ℕ → Option Event) :
    count scenario ((List.range n).map fun i => ⟨f i, scenario'⟩) = if scenario' = scenario then n else 0 := by
  rw [count, List.countP_map]
  by_cases h : scenario' = scenario <;> simp [h, Function.comp_def]

/-- The scheduled scenarios, with their sizes and intervals. -/
def schedule (settings : SimulatorSettings) : List (Scenario × ℕ × ℤ) :=
  [(.fraudBurst, burstSize, settings.burstEvery), (.stuffingUser, stuffingUserFails, settings.stuffingUserEvery),
    (.stuffingIp, stuffingIpFails, settings.stuffingIpEvery)]

theorem transactionOf_scenario (settings : SimulatorSettings) (home : String → Location) (d : Draws) (g : Generator) :
    (transactionOf settings home d g).1.scenario ∈ [Scenario.normal, .replay, .impossibleTravel] := by
  unfold transactionOf
  split_ifs <;> simp

theorem transactionOf_iteration (settings : SimulatorSettings) (home : String → Location) (d : Draws) (g : Generator) :
    (transactionOf settings home d g).2.iteration = g.iteration := by
  unfold transactionOf
  split_ifs <;> rfl

theorem iterate_iteration (settings : SimulatorSettings) (home : String → Location) (d : Draws) (g : Generator) :
    (iterate settings home d g).2.iteration = g.iteration + 1 :=
  transactionOf_iteration settings home d _

/-- What an iteration adds to a count. -/
theorem count_iterate (scenario : Scenario) :
    count scenario (iterate settings home d g).1
      = (if (transactionOf settings home d { g with iteration := g.iteration + 1 }).1.scenario = scenario then 1 else 0)
        + (if Scenario.normal = scenario then 1 else 0) + count scenario (scenariosOf settings home d (g.iteration + 1))
        + if Scenario.sleep = scenario then 1 else 0 := by
  simp only [iterate, List.cons_append, count_cons, count_append, authOf]
  have hnil : count scenario [] = 0 := rfl
  omega

theorem count_scenariosOf (scenario : Scenario) (n : ℕ) :
    count scenario (scenariosOf settings home d n)
      = ((schedule settings).map fun x => if scheduled x.2.2 n ∧ x.1 = scenario then x.2.1 else 0).sum := by
  have hif : ∀ (b : Bool) (es : List Emitted),
      count scenario (if b then es else []) = if b then count scenario es else 0 := by
    intro b es
    cases b <;> rfl
  simp only [scenariosOf, count_append, hif, burstOf, stuffingUserOf, stuffingIpOf, count_map, schedule, List.map_cons,
    List.map_nil, List.sum_cons, List.sum_nil, ← ite_and, add_zero, add_assoc]

theorem count_iterate_scheduled {x : Scenario × ℕ × ℤ} (hx : x ∈ schedule settings) :
    count x.1 (iterate settings home d g).1 = if scheduled x.2.2 (g.iteration + 1) then x.2.1 else 0 := by
  have htx := transactionOf_scenario settings home d { g with iteration := g.iteration + 1 }
  rw [count_iterate, count_scenariosOf]
  simp only [schedule, List.mem_cons, List.not_mem_nil, or_false] at hx htx
  rcases hx with rfl | rfl | rfl <;> rcases htx with htx | htx | htx <;> simp [schedule, htx]

/-- An iteration has one transaction outside the scheduled scenarios, one login and one pause. -/
theorem count_iterate_regular :
    count .normal (iterate settings home d g).1 + count .replay (iterate settings home d g).1
        + count .impossibleTravel (iterate settings home d g).1 = 2 ∧
      count .sleep (iterate settings home d g).1 = 1 := by
  have htx := transactionOf_scenario settings home d { g with iteration := g.iteration + 1 }
  simp only [List.mem_cons, List.not_mem_nil, or_false] at htx
  simp only [count_iterate, count_scenariosOf]
  rcases htx with htx | htx | htx <;> simp [schedule, htx]

theorem count_generate_scheduled {x : Scenario × ℕ × ℤ} (hx : x ∈ schedule settings) (ds : List Draws) (g : Generator) :
    count x.1 (generateEvents settings home ds g).1 + x.2.1 * (g.iteration / x.2.2.natAbs)
      = x.2.1 * ((g.iteration + ds.length) / x.2.2.natAbs) := by
  induction ds generalizing g with
  | nil => simp [generateEvents, count]
  | cons d ds ih =>
      have hstep := scheduled_mul x.2.2 x.2.1 g.iteration
      have hrest := ih (iterate settings home d g).2
      rw [iterate_iteration] at hrest
      simp only [generateEvents, count_append, count_iterate_scheduled hx, List.length_cons]
      rw [show g.iteration + (ds.length + 1) = g.iteration + 1 + ds.length by omega]
      omega

/-- After any number of iterations: every scheduled scenario has come in full as often as its interval fits into them,
never if the interval is 0, and beside them there are two events and a pause for each iteration. -/
theorem scenario_counts (settings : SimulatorSettings) (home : String → Location) (ds : List Draws) :
    let es := (generateEvents settings home ds {}).1
    (∀ x ∈ schedule settings, count x.1 es = x.2.1 * (ds.length / x.2.2.natAbs)) ∧
      count .normal es + count .replay es + count .impossibleTravel es = 2 * ds.length ∧
      count .sleep es = ds.length := by
  have hregular : ∀ g, count .normal (generateEvents settings home ds g).1
      + count .replay (generateEvents settings home ds g).1 + count .impossibleTravel (generateEvents settings home ds g).1
        = 2 * ds.length ∧ count .sleep (generateEvents settings home ds g).1 = ds.length := by
    induction ds with
    | nil => exact fun g => ⟨rfl, rfl⟩
    | cons d ds ih =>
        intro g
        have hrest := ih (iterate settings home d g).2
        have hstep := @count_iterate_regular settings home d g
        simp only [generateEvents, count_append, List.length_cons]
        omega
  refine ⟨fun x hx => ?_, hregular {}⟩
  simpa using count_generate_scheduled hx ds {}

end

/-! ## What the tags promise -/

/-- What the random generator leaves of a draw. -/
structure TxDraw.Drawn (d : TxDraw) : Prop where
  amount : 5 ≤ d.amount ∧ d.amount ≤ 500
  merchant : d.merchant ∈ merchants

/-- Choices are made among the users, the addresses and the places other than home. -/
structure Draws.Drawn (settings : SimulatorSettings) (home : String → Location) (d : Draws) : Prop where
  userId : d.userId ∈ userIds settings
  away : d.away ≠ home d.userId
  tx : d.tx.Drawn
  auUser : d.auUser ∈ userIds settings
  authIp : d.authIp ∈ sampleIps
  burstVictim : d.burstVictim ∈ userIds settings
  burst : ∀ i, (d.burst i).Drawn
  stuffingVictim : d.stuffingVictim ∈ userIds settings

/-- A transaction of one of the users from a place. -/
structure MadeAt (settings : SimulatorSettings) (place : Location) (tx : TransactionEvent) : Prop where
  userId : tx.userId ∈ userIds settings
  location : tx.location = place.code
  latitude : tx.latitude = .num place.coords.1
  longitude : tx.longitude = .num place.coords.2
  merchant : tx.merchant ∈ merchants

/-- A failed login of one of the users from an address. -/
structure FailedFrom (settings : SimulatorSettings) (ip : String) (a : AuthEvent) : Prop where
  userId : a.userId ∈ userIds settings
  ipAddress : a.ipAddress = ip
  failed : a.success = false

/-- The normal transaction of a user that this is. -/
def normalOf (userId : String) (e : Emitted) : Option TransactionEvent :=
  match e.event with
  | some (.tx tx) => if e.scenario = .normal ∧ tx.userId = userId then some tx else none
  | _ => none

/-- The last normal transaction of a user. -/
def lastNormal (es : List Emitted) (userId : String) : Option TransactionEvent :=
  (es.filterMap (normalOf userId)).getLast?

/-- What is emitted after `before` is what its tag says. -/
def Genuine (settings : SimulatorSettings) (home : String → Location) (before : List Emitted) (e : Emitted) : Prop :=
  match e.scenario, e.event with
  | .normal, some (.tx tx) | .fraudBurst, some (.tx tx) => MadeAt settings (home tx.userId) tx
  | .replay, some (.tx tx) => lastNormal before tx.userId = some tx
  | .impossibleTravel, some (.tx tx) => ∃ place ≠ home tx.userId, MadeAt settings place tx
  | .normal, some (.auth a) => a.userId ∈ userIds settings ∧ a.ipAddress ∈ sampleIps
  | .stuffingUser, some (.auth a) => FailedFrom settings stuffingUserIp a
  | .stuffingIp, some (.auth a) => FailedFrom settings stuffingAttackIp a
  | .sleep, none => True
  | _, _ => False

section

variable {settings : SimulatorSettings} {home : String → Location} {d : Draws} {g : Generator} {before : List Emitted}

theorem lastNormal_append_of_none {es : List Emitted} {userId : String} (h : ∀ e ∈ es, normalOf userId e = none) :
    lastNormal (before ++ es) userId = lastNormal before userId := by
  rw [lastNormal, lastNormal, List.filterMap_append, List.filterMap_eq_nil_iff.mpr h, List.append_nil]

theorem madeAt_makeTransaction {draw : TxDraw} {userId : String} (hd : draw.Drawn) (hu : userId ∈ userIds settings)
    (place : Location) : MadeAt settings place (makeTransaction draw userId place) :=
  ⟨hu, rfl, rfl, rfl, hd.merchant⟩

theorem lastNormal_userId {userId : String} {tx : TransactionEvent} (h : lastNormal before userId = some tx) :
    tx.userId = userId := by
  obtain ⟨e, -, he⟩ := List.mem_filterMap.mp (List.mem_of_getLast? h)
  unfold normalOf at he
  split at he
  · split_ifs at he with hnormal
    rw [← Option.some.inj he]
    exact hnormal.2
  · cases he

/-- The transaction of an iteration, and `last_tx` after it. -/
theorem genuine_transactionOf (hd : d.Drawn settings home) (hg : ∀ u, g.lastTx u = lastNormal before u) :
    Genuine settings home before (transactionOf settings home d g).1 ∧
      ∀ u, (transactionOf settings home d g).2.lastTx u
        = lastNormal (before ++ [(transactionOf settings home d g).1]) u := by
  unfold transactionOf
  split_ifs with hreplay htravel
  · obtain ⟨tx, htx⟩ := Option.isSome_iff_exists.mp hreplay.2
    have hlast : lastNormal before d.userId = some tx := (hg d.userId).symm.trans htx
    rw [htx]
    refine ⟨?_, fun u => ?_⟩
    · show lastNormal before tx.userId = some tx
      rwa [lastNormal_userId hlast]
    · rw [lastNormal_append_of_none (by simp [normalOf])]
      exact hg u
  · refine ⟨⟨d.away, hd.away, madeAt_makeTransaction hd.tx hd.userId d.away⟩, fun u => ?_⟩
    rw [lastNormal_append_of_none (by simp [normalOf])]
    exact hg u
  · refine ⟨madeAt_makeTransaction hd.tx hd.userId (home d.userId), fun u => ?_⟩
    by_cases hu : u = d.userId
    · subst hu
      simp [lastNormal, normalOf, makeTransaction]
    · rw [lastNormal_append_of_none (by simp [normalOf, makeTransaction, Ne.symm hu])]
      simp only [Function.update_of_ne hu]
      exact hg u

theorem userIds_getD (hd : d.userId ∈ userIds settings) (i : ℕ) :
    (userIds settings).getD (i % (userIds settings).length) "" ∈ userIds settings := by
  have hlt : i % (userIds settings).length < (userIds settings).length :=
    Nat.mod_lt i (List.length_pos_of_mem hd)
  rw [List.getD_eq_getElem?_getD, List.getElem?_eq_getElem hlt, Option.getD_some]
  exact List.getElem_mem hlt

/-- The scheduled scenarios have their own tags. -/
theorem genuine_scenariosOf (hd : d.Drawn settings home) {n : ℕ} {e : Emitted}
    (he : e ∈ scenariosOf settings home d n) :
    e.scenario ≠ .normal ∧ ∀ before, Genuine settings home before e := by
  have hif : ∀ {b : Bool} {es : List Emitted}, e ∈ (if b then es else []) → e ∈ es := by
    intro b es h
    cases b
    · cases h
    · exact h
  rcases List.mem_append.mp he with he | he
  · rcases List.mem_append.mp he with he | he
    · obtain ⟨i, -, rfl⟩ := List.mem_map.mp (hif he)
      exact ⟨by simp, fun _ => madeAt_makeTransaction (hd.burst i) hd.burstVictim _⟩
    · obtain ⟨i, -, rfl⟩ := List.mem_map.mp (hif he)
      exact ⟨by simp, fun _ => ⟨hd.stuffingVictim, rfl, rfl⟩⟩
  · obtain ⟨i, -, rfl⟩ := List.mem_map.mp (hif he)
    exact ⟨by simp, fun _ => ⟨userIds_getD hd.userId i, rfl, rfl⟩⟩

/-- Everything in an iteration but its transaction. -/
theorem genuine_rest (hd : d.Drawn settings home) (n : ℕ) :
    ∀ e ∈ authOf settings d :: scenariosOf settings home d n ++ [⟨none, .sleep⟩],
      (∀ before, Genuine settings home before e) ∧ ∀ u, normalOf u e = none := by
  intro e he
  rcases List.mem_append.mp he with he | he
  · rcases List.mem_cons.mp he with rfl | he
    · exact ⟨fun _ => ⟨hd.auUser, hd.authIp⟩, fun _ => rfl⟩
    · obtain ⟨htag, hgenuine⟩ := genuine_scenariosOf hd he
      refine ⟨hgenuine, fun u => ?_⟩
      unfold normalOf
      split <;> simp [htag]
  · rw [List.mem_singleton.mp he]
    exact ⟨fun _ => trivial, fun _ => rfl⟩

theorem genuine_iterate (hd : d.Drawn settings home) (hg : ∀ u, g.lastTx u = lastNormal before u) :
    AllAfter (Genuine settings home) before (iterate settings home d g).1 ∧
      ∀ u, (iterate settings home d g).2.lastTx u = lastNormal (before ++ (iterate settings home d g).1) u := by
  obtain ⟨htx, hlast⟩ := genuine_transactionOf (g := { g with iteration := g.iteration + 1 }) hd hg
  have hrest := genuine_rest hd (g.iteration + 1)
  refine ⟨⟨htx, .of_forall fun before e he => (hrest e he).1 before⟩, fun u => ?_⟩
  have happend := @lastNormal_append_of_none (before ++ [(transactionOf settings home d
    { g with iteration := g.iteration + 1 }).1]) _ u fun e he => (hrest e he).2 u
  rw [List.append_assoc] at happend
  exact (hlast u).trans happend.symm

theorem genuine_generate {ds : List Draws} (hds : ∀ d ∈ ds, d.Drawn settings home)
    (hg : ∀ u, g.lastTx u = lastNormal before u) :
    AllAfter (Genuine settings home) before (generateEvents settings home ds g).1 := by
  induction ds generalizing before g with
  | nil => trivial
  | cons d ds ih =>
      obtain ⟨hnow, hlast⟩ := genuine_iterate (hds d (by simp)) hg
      exact hnow.append (ih (fun d' hd' => hds d' (by simp [hd'])) hlast)

/-- In every stream a replay is, verbatim, the last normal transaction of its user; impossible travel is from a place
other than home; and normal traffic and bursts are from home. -/
theorem traffic_genuine {ds : List Draws} (hds : ∀ d ∈ ds, d.Drawn settings home) {before after : List Emitted}
    {e : Emitted} (h : (generateEvents settings home ds {}).1 = before ++ e :: after) :
    Genuine settings home before e := by
  have hall : AllAfter (Genuine settings home) [] (generateEvents settings home ds {}).1 :=
    genuine_generate hds fun _ => rfl
  rw [h] at hall
  simpa using hall.split

end

namespace Sample

/-- One user, who is always due for a replay. -/
def settings : SimulatorSettings :=
  { numUsers := 1, replayProbability := 1, burstEvery := 0, stuffingUserEvery := 0, stuffingIpEvery := 0 }

theorem midnight_valid : 1 ≤ 2024 ∧ 2024 ≤ 9999 ∧ 1 ≤ 1 ∧ 1 ≤ 12 ∧ 1 ≤ 1 ∧ 1 ≤ daysInMonth 2024 1 ∧ 0 < 24 ∧ 0 < 60 ∧
    0 < 60 ∧ 0 < 1000000 ∧ ∀ o ∈ some (0 : ℤ), -86400 < o ∧ o < 86400 := by
  decide

def midnight : Datetime := ⟨2024, 1, 1, 0, 0, 0, 0, some 0, midnight_valid⟩

def draws (eventId : String) : Draws where
  userId := "user_1"
  roll := 0
  away := .usNy
  tx := ⟨eventId, 25 / 2, "Uber", midnight⟩
  auUser := "user_1"
  authRoll := 1 / 2
  authIp := "192.0.2.100"
  auth := ⟨"a-" ++ eventId, midnight⟩
  burstVictim := "user_1"
  burst i := ⟨"b-" ++ toString i, 25 / 2, "Lyft", midnight⟩
  stuffingVictim := "user_1"
  stuffingUser i := ⟨"u-" ++ toString i, midnight⟩
  stuffingIp i := ⟨"i-" ++ toString i, midnight⟩

def home : String → Location := fun _ => .usCa

theorem drawn (eventId : String) : (draws eventId).Drawn settings home where
  userId := List.mem_singleton_self _
  away := by simp [draws, home]
  tx := ⟨by norm_num [draws], by simp [draws, merchants]⟩
  auUser := List.mem_singleton_self _
  authIp := by simp [draws, sampleIps]
  burstVictim := List.mem_singleton_self _
  burst _ := ⟨by norm_num [draws], by simp [draws, merchants]⟩
  stuffingVictim := List.mem_singleton_self _

end Sample

/-- The second iteration sends the transaction of the first again. -/
theorem traffic_genuine_again :
    ∃ before after e, (generateEvents Sample.settings Sample.home [Sample.draws "e1", Sample.draws "e2"] {}).1
        = before ++ e :: after ∧ e.scenario = .replay ∧ Genuine Sample.settings Sample.home before e := by
  obtain ⟨before, e, after, h, hreplay⟩ : ∃ before e after,
      (generateEvents Sample.settings Sample.home [Sample.draws "e1", Sample.draws "e2"] {}).1 = before ++ e :: after ∧
        e.scenario = .replay := by
    refine ⟨(generateEvents Sample.settings Sample.home [Sample.draws "e1"] {}).1, ?_⟩
    exact ⟨_, _, rfl, rfl⟩
  refine ⟨before, after, e, h, hreplay, traffic_genuine (fun d hd => ?_) h⟩
  rcases List.mem_pair.mp hd with rfl | rfl <;> exact Sample.drawn _

end Rtace.Simulator
