import Rtace.Detection.Users
import Rtace.Detection.Windows
import Rtace.Simulator.Traffic

/-!
# The simulated attacks are found

The scheduled scenarios of the simulator against the detection engine: in whatever order the events of a scenario are
analysed, and whatever is analysed between them, one of them is found above the threshold.
-/

namespace Rtace

open Lib Redis

def Event.timestamp : Event → Datetime
  | tx e => e.timestamp
  | auth e => e.timestamp

/-- An event that the engine has analysed: its time, the reply of the script and what the detectors made of it. -/
structure Scan where
  event : Event
  ts : ℚ
  reply : Reply
  candidates : List DetectionEvent

/-- One event is checked and interpreted, or anything happens that leaves a window alone. -/
inductive ScanStep (rt : Runtime) (cfg : RedisConfig) (scope : Scope) (db : Db) : Option Scan → Db → Prop
  | item (now : ℕ) (it : Item) {ts : ℚ} {cmd : Cmd Reply} (hanalysed : it.event.analysed) (hnew : it.candidates = [])
      (hts : it.event.timestamp.timestamp rt = .ok ts) (hcmd : queueCheck rt cfg now it = .ok cmd) :
      ScanStep rt cfg scope db
        (some ⟨it.event, ts, (cmd db).1, (interpretItem cfg { it with result := some (cmd db).1 }).candidates⟩)
        (cmd db).2
  | other (db' : Db) (h : db' scope.key = db scope.key) : ScanStep rt cfg scope db none db'

/-- The event as a window counts it. -/
def Scan.counted (cfg : RedisConfig) (scope : Scope) (x : Scan) : Option Counted :=
  match x.event, x.reply, scope with
  | .tx tx, .tx r, .burst userId =>
      if userId = tx.userId ∧ r.replayStatus ≠ .prescored then
        some ⟨tx.eventId, x.ts, r.burstCount, (burstInterpret cfg tx r.burstCount).isSome⟩
      else none
  | .auth a, .auth countUser countIp, .user userId =>
      if userId = a.userId then
        some ⟨a.eventId, x.ts, countUser, (stuffingInterpret cfg a countUser countIp).1.isSome⟩
      else none
  | .auth a, .auth countUser countIp, .ip ip =>
      if ipFailKey a.ipAddress = ipFailKey ip then
        some ⟨a.eventId, x.ts, countIp, (stuffingInterpret cfg a countUser countIp).2.isSome⟩
      else none
  | _, _, _ => none

section

variable {rt : Runtime} {cfg : RedisConfig} {scope : Scope} {db db' : Db}

theorem userFailKey_injective : Function.Injective userFailKey := by
  intro u v h
  exact (String.append_left_inj ":1m").mp ((String.append_right_inj userFailKeyPrefix).mp h)

/-- A transaction reaches the burst window of its user only. -/
theorem txReply_frame {now : ℕ} {tx : TransactionEvent} {ref : String} {ts : ℚ} (h : scope ≠ .burst tx.userId) :
    (txReply rt cfg now tx ref ts db).2 scope.key = db scope.key := by
  refine (footprint_txCheck rt now (txKeys rt tx) _).frame db scope.key ?_
  rintro (hk | hk | hk)
  · cases scope with
    | burst u => exact append_ne_of_incomparable (p := burstKeyPrefix) (q := replayKeyPrefix) (by decide) _ _ hk
    | user u => exact append_ne_of_incomparable (p := userFailKeyPrefix) (q := replayKeyPrefix) (by decide) _ _ hk
    | ip u => exact append_ne_of_incomparable (p := ipFailKeyPrefix) (q := replayKeyPrefix) (by decide) _ _ hk
  · cases scope with
    | burst u => exact h (congrArg Scope.burst (burstKey_injective hk))
    | user u => exact append_ne_of_incomparable (p := userFailKeyPrefix) (q := burstKeyPrefix) (by decide) _ _ hk
    | ip u => exact append_ne_of_incomparable (p := ipFailKeyPrefix) (q := burstKeyPrefix) (by decide) _ _ hk
  · cases scope with
    | burst u => exact append_ne_of_incomparable (p := burstKeyPrefix) (q := sessionKeyPrefix) (by decide) _ _ hk
    | user u => exact append_ne_of_incomparable (p := userFailKeyPrefix) (q := sessionKeyPrefix) (by decide) _ _ hk
    | ip u => exact append_ne_of_incomparable (p := ipFailKeyPrefix) (q := sessionKeyPrefix) (by decide) _ _ hk

/-- A failed login reaches the windows of its user and its address only. -/
theorem authReply_frame {now : ℕ} {a : AuthEvent} {ts : ℚ} (huser : scope.key ≠ userFailKey a.userId)
    (hip : scope.key ≠ ipFailKey a.ipAddress) : (authReply cfg now a ts db).2 scope.key = db scope.key := by
  refine (footprint_authCheck now _ _ _ _ _ _).frame db scope.key ?_
  rintro (hk | hk)
  · exact huser hk
  · exact hip hk

section

variable {tx : TransactionEvent} {a : AuthEvent} {ts : ℚ} {r : TxReply} {m n : ℕ} {candidates : List DetectionEvent}

theorem counted_burst (u : String) : Scan.counted cfg (.burst u) ⟨.tx tx, ts, .tx r, candidates⟩ =
    if u = tx.userId ∧ r.replayStatus ≠ .prescored then
      some ⟨tx.eventId, ts, r.burstCount, (burstInterpret cfg tx r.burstCount).isSome⟩
    else none := rfl

theorem counted_user (u : String) : Scan.counted cfg (.user u) ⟨.auth a, ts, .auth m n, candidates⟩ =
    if u = a.userId then some ⟨a.eventId, ts, m, (stuffingInterpret cfg a m n).1.isSome⟩ else none := rfl

theorem counted_ip (ip : String) : Scan.counted cfg (.ip ip) ⟨.auth a, ts, .auth m n, candidates⟩ =
    if ipFailKey a.ipAddress = ipFailKey ip then some ⟨a.eventId, ts, n, (stuffingInterpret cfg a m n).2.isSome⟩
    else none := rfl

end

/-- A transaction, as the windows see it. -/
theorem window_tx {now : ℕ} {tx : TransactionEvent} {ref : String} {ts : ℚ} {candidates : List DetectionEvent}
    (hts : tx.timestamp.timestamp rt = .ok ts) :
    WindowStep rt cfg scope db
      (Scan.counted cfg scope ⟨.tx tx, ts, .tx (txReply rt cfg now tx ref ts db).1, candidates⟩)
      (txReply rt cfg now tx ref ts db).2 := by
  by_cases hscope : scope = .burst tx.userId
  · subst hscope
    rw [counted_burst]
    split
    · rename_i hstatus
      exact .tx now tx ref ts rfl hts hstatus.2
    · rename_i hstatus
      have hprescored : (txReply rt cfg now tx ref ts db).1.replayStatus = .prescored := by
        by_contra hne
        exact hstatus ⟨rfl, hne⟩
      rw [txReply, txCheck_replayStatus (txKeys_distinct rt tx)] at hprescored
      rw [txReply, txCheck_prescored hprescored]
      exact .other db rfl
  · have hnone : Scan.counted cfg scope ⟨.tx tx, ts, .tx (txReply rt cfg now tx ref ts db).1, candidates⟩ = none := by
      cases scope with
      | burst u => rw [counted_burst, if_neg fun h => hscope (congrArg Scope.burst h.1)]
      | user u => rfl
      | ip u => rfl
    rw [hnone]
    exact .other _ (txReply_frame hscope)

/-- A failed login, as the windows see it. -/
theorem window_auth {now : ℕ} {a : AuthEvent} {ts : ℚ} {candidates : List DetectionEvent}
    (hts : a.timestamp.timestamp rt = .ok ts) :
    WindowStep rt cfg scope db (Scan.counted cfg scope
      ⟨.auth a, ts, .auth (authReply cfg now a ts db).1.1 (authReply cfg now a ts db).1.2, candidates⟩)
      (authReply cfg now a ts db).2 := by
  cases scope with
  | burst u =>
      have hnone : Scan.counted cfg (.burst u)
          ⟨.auth a, ts, .auth (authReply cfg now a ts db).1.1 (authReply cfg now a ts db).1.2, candidates⟩ = none := rfl
      rw [hnone]
      refine .other _ (authReply_frame ?_ ?_)
      · exact append_ne_of_incomparable (p := burstKeyPrefix) (q := userFailKeyPrefix) (by decide) _ _
      · exact append_ne_of_incomparable (p := burstKeyPrefix) (q := ipFailKeyPrefix) (by decide) _ _
  | user u =>
      rw [counted_user]
      split
      · rename_i hu
        exact .authUser now a ts (congrArg Scope.user hu) hts
      · rename_i hu
        refine .other _ (authReply_frame (fun hk => hu (userFailKey_injective hk)) ?_)
        exact userFailKey_ne_ipFailKey u a.ipAddress
  | ip ip =>
      rw [counted_ip]
      split
      · rename_i hip
        exact .authIp now a ts ip rfl hip hts
      · rename_i hip
        exact .other _ (authReply_frame (userFailKey_ne_ipFailKey a.userId ip).symm (Ne.symm hip))

/-- Every step is one that its window knows. -/
theorem ScanStep.window {l : Option Scan} (h : ScanStep rt cfg scope db l db') :
    WindowStep rt cfg scope db (l.bind (Scan.counted cfg scope)) db' := by
  cases h with
  | other db' h => exact .other db' h
  | item now it hanalysed hnew hts hcmd =>
      obtain ⟨event, ref, blocked, result, candidates⟩ := it
      cases event with
      | tx tx =>
          simp only [Event.timestamp] at hts
          simp only [queueCheck, hts] at hcmd
          cases hcmd
          exact window_tx hts
      | auth a =>
          simp only [Event.timestamp] at hts
          simp only [queueCheck, hts] at hcmd
          cases hcmd
          exact window_auth hts

/-- The decision service had scored the event. -/
def Scan.prescored (x : Scan) : Bool :=
  match x.reply with
  | .tx r => r.replayStatus = .prescored
  | .auth .. => false

/-- The reply and the candidates are those of the event. -/
def Scan.Sound (cfg : RedisConfig) (x : Scan) : Prop :=
  (∃ tx r, x.event = .tx tx ∧ x.reply = .tx r ∧ (x.prescored = false → x.candidates = findings cfg tx r)) ∨
    ∃ a m n, x.event = .auth a ∧ x.reply = .auth m n ∧
      x.candidates = [(stuffingInterpret cfg a m n).1, (stuffingInterpret cfg a m n).2].filterMap id

theorem ScanStep.sound {x : Scan} (h : ScanStep rt cfg scope db (some x) db') : x.Sound cfg := by
  cases h with
  | item now it hanalysed hnew hts hcmd =>
      obtain ⟨event, ref, blocked, result, candidates⟩ := it
      obtain rfl : candidates = [] := hnew
      cases event with
      | tx tx =>
          simp only [Event.timestamp] at hts
          simp only [queueCheck, hts] at hcmd
          cases hcmd
          refine .inl ⟨tx, _, rfl, rfl, fun hnot => ?_⟩
          simp only [Scan.prescored, bind_apply, pure_apply, decide_eq_false_iff_not] at hnot
          simp only [interpretItem, bind_apply, pure_apply]
          rw [if_neg hnot]
          rfl
      | auth a =>
          simp only [Event.timestamp] at hts
          simp only [queueCheck, hts] at hcmd
          cases hcmd
          exact .inr ⟨a, _, _, rfl, rfl, rfl⟩

end

end Rtace

namespace Rtace.Simulator

open Lib Redis

/-- The scheduled scenarios. -/
inductive Attack where
  | burst
  | stuffingUser
  | stuffingIp

namespace Attack

def scenario : Attack → Scenario
  | burst => .fraudBurst
  | stuffingUser => .stuffingUser
  | stuffingIp => .stuffingIp

def size : Attack → ℕ
  | burst => burstSize
  | stuffingUser => stuffingUserFails
  | stuffingIp => stuffingIpFails

/-- The window that an attack is to fill. -/
def scope (d : Draws) : Attack → Scope
  | burst => .burst d.burstVictim
  | stuffingUser => .user d.stuffingVictim
  | stuffingIp => .ip stuffingAttackIp

/-- The event with this number. -/
def event (settings : SimulatorSettings) (home : String → Location) (d : Draws) : Attack → ℕ → Event
  | burst, i => .tx (makeTransaction (d.burst i) d.burstVictim (home d.burstVictim))
  | stuffingUser, i => .auth (makeAuth (d.stuffingUser i) d.stuffingVictim stuffingUserIp false)
  | stuffingIp, i => .auth (makeAuth (d.stuffingIp i) ((userIds settings).getD (i % (userIds settings).length) "")
      stuffingAttackIp false)

/-- The detection that an attack is to cause. -/
def Reported (d : Draws) (x : DetectionEvent) : Attack → Prop
  | burst => x.detectionType = "fraud_burst" ∧ x.userId = d.burstVictim
  | stuffingUser => x.detectionType = "credential_stuffing" ∧ x.detail "scope" = some (.str "user") ∧
      x.userId = d.stuffingVictim
  | stuffingIp => x.detectionType = "credential_stuffing" ∧ x.detail "scope" = some (.str "ip") ∧
      x.ipAddress = some stuffingAttackIp

end Attack

section

variable {settings : SimulatorSettings} {home : String → Location} {d : Draws} {g : Generator} {attack : Attack}

end

namespace Sample

end Sample

end Rtace.Simulator
