import Rtace.Detection.NoLoss
import Rtace.Lib.Spread

/-!
# Cooldown spacing across processes

Several detection engines share one Redis. Each claims the cooldowns of its candidates, then, at any later
time, confirms their delivery or gives up and releases the keys it claimed. A key is held for the length of
a cooldown, so two claims of one key are a cooldown apart as long as nobody deletes the key of a claim
that is still alive. `release_cooldown` deletes by name, so it does delete it when the releaser's own
claim has lapsed and somebody else has claimed the key since (`OwnReleaseStep` excludes just this).
-/

namespace Rtace

open Lib Redis

/-- A cooldown that was won: the detection, and the time of its `SET`. -/
structure Claim where
  detection : DetectionEvent
  since : ℕ

/-- The key that was claimed. -/
def Claim.key (x : Claim) : String := cooldownKey x.detection

/-- Two claims are of different keys, or at least a cooldown of `c` seconds apart. -/
def Apart (c : ℕ) (x y : Claim) : Prop :=
  x.key = y.key → x.since + 1000 * c ≤ y.since ∨ y.since + 1000 * c ≤ x.since

theorem Apart.symm {c : ℕ} {x y : Claim} (h : Apart c x y) : Apart c y x :=
  fun hkey => (h hkey.symm).symm

/-- What one process is doing. -/
inductive Worker where
  | idle
  /-- The detections still to be claimed, and the claims won so far; with none left the flush is under way. -/
  | claiming (todo : List DetectionEvent) (won : List Claim)

/-- The claims a process answers for. -/
def Worker.won : Worker → List Claim
  | idle => []
  | claiming _ won => won

/-- All processes, the Redis they share, and the claims whose detections were delivered so far. -/
structure Fleet where
  now : ℕ
  db : Db
  worker : ℕ → Worker
  delivered : List Claim

namespace Fleet

/-- Process `p` goes on as `w`. -/
def goOn (s : Fleet) (p : ℕ) (w : Worker) : Fleet := { s with worker := Function.update s.worker p w }

/-- Process `p` runs the `SET NX` of `d`. -/
def claim (cfg : RedisConfig) (s : Fleet) (p : ℕ) (d : DetectionEvent) (todo : List DetectionEvent)
    (won : List Claim) : Fleet :=
  let out := cooldownClaim cfg s.now d s.db
  { s.goOn p (.claiming todo (if out.1 then won ++ [⟨d, s.now⟩] else won)) with db := out.2 }

/-- Process `p` gives up and releases the keys it claimed. -/
def release (s : Fleet) (p : ℕ) (won : List Claim) : Fleet :=
  { s.goOn p .idle with db := (releaseCooldown (won.map Claim.key) s.db).2 }

end Fleet

inductive FleetLabel where
  | start (p : ℕ)
  | claim (p : ℕ)
  | deliver (p : ℕ)
  | release (p : ℕ)
  | abandon (p : ℕ)
  | other
  | tick (now : ℕ)

/-- One step of the fleet. The pipeline of claims is not a transaction, so others may act between two of
its commands. -/
inductive FleetStep (cfg : RedisConfig) : Fleet → FleetLabel → Fleet → Prop
  /-- `filter_cooled_down` past its guards. -/
  | start {s : Fleet} (p : ℕ) (ds : List DetectionEvent) (hcd : 0 < cfg.detectionCooldownSeconds)
      (hp : s.worker p = .idle) : FleetStep cfg s (.start p) (s.goOn p (.claiming ds []))
  | claim {s : Fleet} (p : ℕ) (d : DetectionEvent) (todo : List DetectionEvent) (won : List Claim)
      (hp : s.worker p = .claiming (d :: todo) won) : FleetStep cfg s (.claim p) (s.claim cfg p d todo won)
  /-- `flush_and_verify` returned. -/
  | deliver {s : Fleet} (p : ℕ) (won : List Claim) (hp : s.worker p = .claiming [] won) :
      FleetStep cfg s (.deliver p) { s.goOn p .idle with delivered := s.delivered ++ won }
  /-- `flush_and_verify` raised. -/
  | release {s : Fleet} (p : ℕ) (won : List Claim) (hp : s.worker p = .claiming [] won) :
      FleetStep cfg s (.release p) (s.release p won)
  /-- A crash, or a round trip or a release that failed. -/
  | abandon {s : Fleet} (p : ℕ) : FleetStep cfg s (.abandon p) (s.goOn p .idle)
  /-- Whatever else uses the store. -/
  | other {s : Fleet} (db : Db) (hdb : ∀ k ∈ cooldownKeys, db k = s.db k) :
      FleetStep cfg s .other { s with db }
  | tick {s : Fleet} (now : ℕ) (h : s.now ≤ now) :
      FleetStep cfg s (.tick now) { s with now, db := purge now s.db }

/-- A claim is younger than the cooldown. -/
def Claim.Live (cfg : RedisConfig) (now : ℕ) (x : Claim) : Prop :=
  now < x.since + 1000 * cfg.detectionCooldownSeconds.toNat

/-- A release, if this is one, finds each of its keys gone or still its own. -/
def OwnReleaseStep (cfg : RedisConfig) (s : Fleet) (l : FleetLabel) (t : Fleet) : Prop :=
  FleetStep cfg s l t ∧ ∀ p, l = .release p → ∀ x ∈ (s.worker p).won,
    s.db x.key = none ∨ ∃ y ∈ (s.worker p).won, y.key = x.key ∧ y.Live cfg s.now

/-! ## The claims of one process -/

section Single

variable {cfg : RedisConfig}

/-- The claims of one process that nobody interrupts are those of the pipeline. -/
theorem run_claims (cfg : RedisConfig) (s : Fleet) (p : ℕ) (ds : List DetectionEvent) (won : List Claim)
    (hp : s.worker p = .claiming ds won) :
    let out := runAll (ds.map (cooldownClaim cfg s.now)) s.db
    Run (FleetStep cfg) s (ds.map fun _ => .claim p)
      { s.goOn p (.claiming [] (won ++ (cooldownWinners ds out.1).map (⟨·, s.now⟩))) with db := out.2 } := by
  induction ds generalizing s won with
  | nil =>
      have hsame : s.goOn p (.claiming [] won) = s := by rw [Fleet.goOn, ← hp, Function.update_eq_self]
      simp only [List.map_nil, runAll_nil, pure_apply, cooldownWinners, List.zip_nil_right, List.filter_nil,
        List.append_nil, hsame]
      exact Run.nil
  | cons d ds ih =>
      set won' := if (cooldownClaim cfg s.now d s.db).1 then won ++ [⟨d, s.now⟩] else won with hwon'
      have hrest := ih (s.claim cfg p d ds won) won' (Function.update_self ..)
      refine Run.cons (.claim p d ds won hp) ?_
      convert hrest using 1
      simp only [List.map_cons, runAll_cons, cooldownWinners_cons, Fleet.claim, Fleet.goOn,
        Function.update_idem, hwon']
      split <;> simp

/-- `filter_cooled_down` by one process that nobody interrupts. -/
theorem run_filterCooledDown (hcd : 0 < cfg.detectionCooldownSeconds) (s : Fleet) (p : ℕ)
    (ds : List DetectionEvent) (hp : s.worker p = .idle) :
    let out := filterCooledDown cfg s.now ds s.db
    let won : List Claim := out.1.1.map (⟨·, s.now⟩)
    Run (FleetStep cfg) s (.start p :: ds.map fun _ => .claim p)
      { s.goOn p (.claiming [] won) with db := out.2 } ∧ won.map Claim.key = out.1.2 := by
  have hrun := run_claims cfg (s.goOn p (.claiming ds [])) p ds [] (Function.update_self ..)
  rw [filterCooledDown_eq hcd]
  refine ⟨Run.cons (.start p ds hcd hp) ?_, ?_⟩
  · simpa only [Fleet.goOn, Function.update_idem, List.nil_append] using hrun
  · rw [List.map_map]
    rfl

end Single

/-! ## Claims are apart -/

/-- Where a claim may be: with a process, or among the delivered ones. -/
def Fleet.claims (s : Fleet) : Option ℕ → List Claim
  | none => s.delivered
  | some p => (s.worker p).won

/-- All claims are apart, and those that are alive hold their key. -/
structure Spaced (cfg : RedisConfig) (s : Fleet) : Prop where
  spread : Spread (Apart cfg.detectionCooldownSeconds.toNat) s.claims
  past : ∀ o, ∀ x ∈ s.claims o, x.since ≤ s.now
  held : ∀ o, ∀ x ∈ s.claims o, x.Live cfg s.now →
    ∃ v, s.db x.key = some ⟨v, deadline x.since cfg.detectionCooldownSeconds.toNat⟩

theorem claims_goOn (s : Fleet) (p : ℕ) (w : Worker) :
    (s.goOn p w).claims = Function.update s.claims (some p) w.won := by
  funext o
  cases o with
  | none => rfl
  | some q =>
      rcases eq_or_ne q p with rfl | hne
      · simp [Fleet.claims, Fleet.goOn]
      · simp [Fleet.claims, Fleet.goOn, hne]

section Step

variable {cfg : RedisConfig} {s t : Fleet} {l : FleetLabel}

/-- Two claims of one key are not alive at once. -/
theorem Apart.not_live {c : ℕ} {x y : Claim} {now : ℕ} (h : Apart c x y) (hkey : x.key = y.key)
    (hx : x.since ≤ now) (hy : y.since ≤ now) (hlive : now < x.since + 1000 * c) :
    ¬ now < y.since + 1000 * c := by
  have := h hkey
  omega

/-- A process that holds nothing new changes nothing for the others. -/
theorem Spaced.drop (h : Spaced cfg s) (p : ℕ) {w : Worker} (hw : w.won = []) : Spaced cfg (s.goOn p w) := by
  have hmem : ∀ o, ∀ x ∈ (s.goOn p w).claims o, x ∈ s.claims o := by
    rw [claims_goOn, hw]
    refine (Function.forall_update_iff _ fun o xs => ∀ x ∈ xs, x ∈ s.claims o).mpr ⟨?_, fun o _ x hx => hx⟩
    exact fun x hx => absurd hx List.not_mem_nil
  refine ⟨?_, fun o x hx => h.past o x (hmem o x hx), fun o x hx => h.held o x (hmem o x hx)⟩
  rw [claims_goOn, hw]
  exact h.spread.clear (some p)

/-- A claim of a free key. -/
theorem claim_of_free {p : ℕ} {d : DetectionEvent} {todo : List DetectionEvent} {won : List Claim}
    (hfree : s.db (cooldownKey d) = none) :
    s.claim cfg p d todo won = { s.goOn p (.claiming todo (won ++ [⟨d, s.now⟩])) with
      db := (Function.update s.db (cooldownKey d)
        (some ⟨.str (.text d.detectionId), deadline s.now cfg.detectionCooldownSeconds.toNat⟩)) } := by
  simp only [Fleet.claim, cooldownClaim_apply, hfree, Option.isNone_none, if_true]

/-- A claim of a key that is held. -/
theorem claim_of_held {p : ℕ} {d : DetectionEvent} {todo : List DetectionEvent} {won : List Claim}
    (hheld : s.db (cooldownKey d) ≠ none) :
    s.claim cfg p d todo won = s.goOn p (.claiming todo won) := by
  have hsome : (s.db (cooldownKey d)).isNone = false := by
    rw [Bool.eq_false_iff, Ne, Option.isNone_iff_eq_none]
    exact hheld
  simp only [Fleet.claim, cooldownClaim_apply, hheld, hsome, if_false, Bool.false_eq_true]
  rfl

theorem Spaced.of_claims {f : Option ℕ → List Claim} (hf : t.claims = f)
    (hspread : Spread (Apart cfg.detectionCooldownSeconds.toNat) f) (hpast : ∀ o, ∀ x ∈ f o, x.since ≤ t.now)
    (hheld : ∀ o, ∀ x ∈ f o, x.Live cfg t.now →
      ∃ v, t.db x.key = some ⟨v, deadline x.since cfg.detectionCooldownSeconds.toNat⟩) : Spaced cfg t := by
  subst hf
  exact ⟨hspread, hpast, hheld⟩

/-- A claim succeeds only if no claim of its key is alive. -/
theorem Spaced.claim (h : Spaced cfg s) (p : ℕ) (d : DetectionEvent) (todo : List DetectionEvent) :
    Spaced cfg (s.claim cfg p d todo (s.claims (some p))) := by
  by_cases hfree : s.db (cooldownKey d) = none
  · rw [claim_of_free hfree]
    set new : Claim := ⟨d, s.now⟩
    have hlapsed : ∀ o, ∀ x ∈ s.claims o, x.key = new.key → ¬ x.Live cfg s.now := by
      intro o x hx hkey hlive
      obtain ⟨v, hv⟩ := h.held o x hx hlive
      rw [hkey] at hv
      exact absurd (hv.symm.trans hfree) (Option.some_ne_none _)
    have hmem : ∀ o, ∀ x ∈ Function.update s.claims (some p) (s.claims (some p) ++ [new]) o,
        x ∈ s.claims o ∨ x = new := by
      refine (Function.forall_update_iff _ fun o xs => ∀ x ∈ xs, x ∈ s.claims o ∨ x = new).mpr
        ⟨fun x hx => ?_, fun o _ x hx => Or.inl hx⟩
      rwa [List.mem_append, List.mem_singleton] at hx
    refine .of_claims (claims_goOn s p (.claiming todo (s.claims (some p) ++ [new]))) ?_ (fun o x hx => ?_)
      (fun o x hx hlive => ?_)
    · refine h.spread.snoc (fun _ _ => Apart.symm) (some p) fun o x hx hkey => Or.inl ?_
      exact not_lt.mp (hlapsed o x hx hkey)
    · rcases hmem o x hx with hx | rfl
      · exact h.past o x hx
      · exact le_rfl
    · rcases hmem o x hx with hx | rfl
      · have hne : x.key ≠ cooldownKey d := fun hkey => hlapsed o x hx hkey hlive
        obtain ⟨v, hv⟩ := h.held o x hx hlive
        exact ⟨v, (Function.update_of_ne hne ..).trans hv⟩
      · exact ⟨_, Function.update_self ..⟩
  · have hclaims := claims_goOn s p (.claiming todo (s.claims (some p)))
    rw [Worker.won, Function.update_eq_self] at hclaims
    rw [claim_of_held hfree]
    exact .of_claims hclaims h.spread h.past h.held

/-- Delivered claims stay as far apart as they were. -/
theorem Spaced.deliver (h : Spaced cfg s) (p : ℕ) :
    Spaced cfg { s.goOn p .idle with delivered := s.delivered ++ s.claims (some p) } := by
  set f := Function.update (Function.update s.claims (some p) []) none (s.claims none ++ s.claims (some p)) with hf
  have hclaims : ({ s.goOn p .idle with delivered := s.delivered ++ s.claims (some p) } : Fleet).claims = f := by
    funext o
    cases o with
    | none =>
        rw [hf, Function.update_self]
        rfl
    | some q =>
        rw [hf, Function.update_of_ne (Option.some_ne_none q)]
        exact congrFun (claims_goOn s p .idle) (some q)
  have hmem : ∀ o, ∀ x ∈ f o, ∃ o', x ∈ s.claims o' := by
    intro o x hx
    rcases eq_or_ne o none with rfl | hnone
    · rw [hf, Function.update_self, List.mem_append] at hx
      exact hx.elim (fun hx => ⟨_, hx⟩) fun hx => ⟨_, hx⟩
    · rw [hf, Function.update_of_ne hnone] at hx
      rcases eq_or_ne o (some p) with rfl | hne
      · rw [Function.update_self] at hx
        exact absurd hx List.not_mem_nil
      · rw [Function.update_of_ne hne] at hx
        exact ⟨_, hx⟩
  refine .of_claims hclaims (h.spread.move (Option.some_ne_none p).symm) (fun o x hx => ?_) (fun o x hx => ?_)
  · obtain ⟨o', hx'⟩ := hmem o x hx
    exact h.past o' x hx'
  · obtain ⟨o', hx'⟩ := hmem o x hx
    exact h.held o' x hx'

/-- A step that leaves the claims where they are, and their keys as far as they are alive. -/
theorem Spaced.frame (h : Spaced cfg s) (hclaims : t.claims = s.claims) (hnow : s.now ≤ t.now)
    (hdb : ∀ o, ∀ x ∈ s.claims o, x.Live cfg t.now →
      ∀ v, s.db x.key = some ⟨v, deadline x.since cfg.detectionCooldownSeconds.toNat⟩ → t.db x.key = s.db x.key) :
    Spaced cfg t := by
  refine .of_claims hclaims h.spread (fun o x hx => (h.past o x hx).trans hnow) fun o x hx hlive => ?_
  obtain ⟨v, hv⟩ := h.held o x hx (lt_of_le_of_lt hnow hlive)
  exact ⟨v, (hdb o x hx hlive v hv).trans hv⟩

/-- A release of keys that are gone or still its own deletes nobody else's claim. -/
theorem Spaced.release (h : Spaced cfg s) (p : ℕ)
    (hown : ∀ x ∈ s.claims (some p),
      s.db x.key = none ∨ ∃ y ∈ s.claims (some p), y.key = x.key ∧ y.Live cfg s.now) :
    Spaced cfg (s.release p (s.claims (some p))) := by
  refine (h.drop p (w := .idle) rfl).frame rfl le_rfl fun o z hz hlive v hv => ?_
  change (releaseCooldown ((s.claims (some p)).map Claim.key) s.db).2 z.key = s.db z.key
  rw [releaseCooldown_apply, if_neg]
  intro hmem
  obtain ⟨x, hx, hkey⟩ := List.mem_map.mp hmem
  have hother : o ≠ some p := by
    rintro rfl
    rw [claims_goOn, Function.update_self] at hz
    exact List.not_mem_nil hz
  rw [claims_goOn, Function.update_of_ne hother] at hz
  rcases hown x hx with hnone | ⟨y, hy, hyx, hylive⟩
  · rw [hkey] at hnone
    exact absurd (hv.symm.trans hnone) (Option.some_ne_none _)
  · have hapart := h.spread.across (some p) o hother.symm y hy z hz
    exact hapart.not_live (hyx.trans hkey) (h.past _ y hy) (h.past o z hz) hylive hlive

theorem Spaced.step (h : Spaced cfg s) (hstep : OwnReleaseStep cfg s l t) : Spaced cfg t := by
  obtain ⟨hstep, hown⟩ := hstep
  cases hstep with
  | start p ds hcd hp => exact h.drop p rfl
  | abandon p => exact h.drop p rfl
  | claim p d todo won hp =>
      obtain rfl : s.claims (some p) = won := congrArg Worker.won hp
      exact h.claim p d todo
  | deliver p won hp =>
      obtain rfl : s.claims (some p) = won := congrArg Worker.won hp
      exact h.deliver p
  | release p won hp =>
      obtain rfl : s.claims (some p) = won := congrArg Worker.won hp
      exact h.release p (hown p rfl)
  | other db hdb => exact h.frame rfl le_rfl fun o x hx hlive v hv => hdb _ (cooldownKey_mem _)
  | tick now hnow =>
      refine h.frame rfl hnow fun o x hx hlive v hv => ?_
      change purge now s.db x.key = s.db x.key
      rw [purge, hv, Option.filter_some, if_pos]
      simpa [deadline, Claim.Live] using hlive

end Step

namespace Sample

/-- The store after `d` was claimed. -/
def stored (s : Fleet) (d : DetectionEvent) : Db :=
  Function.update s.db (cooldownKey d) (some ⟨.str (.text d.detectionId), deadline s.now 60⟩)

/-- Process `p` claims a free key and waits for its flush. -/
theorem pending {s : Fleet} {p : ℕ} {d : DetectionEvent} (hp : s.worker p = .idle)
    (hfree : s.db (cooldownKey d) = none) :
    Run (OwnReleaseStep {}) s [.start p, .claim p]
      { s.goOn p (.claiming [] [⟨d, s.now⟩]) with db := stored s d } := by
  have hclaim : FleetStep {} (s.goOn p (.claiming [d] [])) (.claim p) _ :=
    .claim p d [] [] (Function.update_self ..)
  rw [claim_of_free (s := s.goOn p (.claiming [d] [])) hfree] at hclaim
  simp only [Fleet.goOn, Function.update_idem] at hclaim
  exact .cons ⟨.start p [d] (by decide) hp, fun _ hl => by cases hl⟩ (.single ⟨hclaim, fun _ hl => by cases hl⟩)

end Sample

section

open Sample

end

end Rtace
