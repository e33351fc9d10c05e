import Rtace.Containment.Consumer
import Rtace.Containment.Justified
import Rtace.Decision.Document

/-!
# Verdicts and containment

The reason scores of `decision-service/internal/decision/engine.go` are chosen to match the asynchronous
containment policy: replay and burst deny as they quarantine, geo velocity challenges as it asks for a
step-up. There are thresholds for which they do, and others. With the right thresholds a verdict is what
the containment engine makes of the same findings, in whatever order and however often the detections
reach it.
-/

namespace Rtace.Engine

/-- The signals that quarantine. -/
def hardSignal (type : String) : Bool := type = "replay_attack" ∨ type = "fraud_burst"

/-- The verdict that containment would give: deny where it quarantines, challenge where it asks for a
step-up. -/
def containmentVerdict (reasons : List Reason) : Verdict :=
  if reasons.any fun x => hardSignal x.type then .deny
  else if reasons.isEmpty then .allow
  else .challenge

/-- The thresholds separate the hard signals from the soft one, and the soft one from none. -/
def Config.Separates (cfg : Config) : Prop :=
  scoreGeo < cfg.denyScore ∧ cfg.denyScore ≤ scoreBurst ∧ cfg.challengeScore ≤ scoreGeo

/-- What the verdict is taken from: the score by what the script found. -/
theorem score_interpret (cfg : Config) (tx : Transaction) (r : TxReply) :
    (verdict cfg (interpret cfg tx r)).1 =
      if r.replayStatus = .replay then 100
      else if (r.burstCount : ℤ) > cfg.burstThreshold then if r.geoStatus = .anomaly then 90 else 80
      else if r.geoStatus = .anomaly then 70 else 0 := by
  have hfst : ∀ rs : List Reason, (verdict cfg rs).1 = if rs.isEmpty then 0 else
      min 100 (rs.foldl (fun m x => if x.score > m then x.score else m) 0 + 10 * (rs.length - 1 : ℕ)) := by
    intro rs
    unfold verdict
    split
    · rfl
    · dsimp only
      split
      · rfl
      · split <;> rfl
  rw [hfst]
  simp only [interpret]
  split <;> split <;> split <;> rfl

/-- The verdict of reasons is that of their score, if there are any. -/
theorem verdict_snd (cfg : Config) (reasons : List Reason) :
    (verdict cfg reasons).2 = if reasons.isEmpty then .allow
      else if (verdict cfg reasons).1 ≥ cfg.denyScore then .deny
      else if (verdict cfg reasons).1 ≥ cfg.challengeScore then .challenge
      else .allow := by
  unfold verdict
  split
  · rfl
  · dsimp only
    split
    · simp_all
    · split <;> simp_all

theorem containmentVerdict_interpret (cfg : Config) (tx : Transaction) (r : TxReply) :
    containmentVerdict (interpret cfg tx r) =
      if r.replayStatus = .replay ∨ (r.burstCount : ℤ) > cfg.burstThreshold then .deny
      else if r.geoStatus = .anomaly then .challenge else .allow := by
  simp only [interpret]
  split <;> split <;> split <;> simp_all [containmentVerdict, hardSignal]

theorem interpret_isEmpty (cfg : Config) (tx : Transaction) (r : TxReply) :
    (interpret cfg tx r).isEmpty = true ↔
      ¬ (r.replayStatus = .replay ∨ (r.burstCount : ℤ) > cfg.burstThreshold) ∧ r.geoStatus ≠ .anomaly := by
  simp only [interpret]
  split <;> split <;> split <;> simp_all

/-- With separating thresholds the verdict is the one containment would give. -/
theorem verdict_eq_containmentVerdict {cfg : Config} (h : cfg.Separates) (tx : Transaction) (r : TxReply) :
    (verdict cfg (interpret cfg tx r)).2 = containmentVerdict (interpret cfg tx r) := by
  obtain ⟨hgeo, hburst, hchallenge⟩ := h
  simp only [scoreGeo, scoreBurst] at hgeo hburst hchallenge
  rw [verdict_snd, score_interpret, containmentVerdict_interpret]
  simp only [interpret_isEmpty]
  by_cases hr : r.replayStatus = .replay
  · have hdeny : (100 : ℤ) ≥ cfg.denyScore := by omega
    simp [hr, hdeny]
  · by_cases hb : (r.burstCount : ℤ) > cfg.burstThreshold
    · have hdeny : (90 : ℤ) ≥ cfg.denyScore ∧ (80 : ℤ) ≥ cfg.denyScore := by omega
      by_cases hg : r.geoStatus = .anomaly
      · simp [hr, hb, hg, hdeny.1]
      · simp [hr, hb, hg, hdeny.2]
    · by_cases hg : r.geoStatus = .anomaly
      · have hsoft : ¬ (70 : ℤ) ≥ cfg.denyScore := by omega
        simp [hr, hb, hg, hsoft, hchallenge]
      · simp [hr, hb, hg]

end Rtace.Engine

namespace Rtace.Containment

open Lib Redis Engine

/-! ## Containing the findings of one decision -/

/-- The containment engine calls `apply_containment` for detections one after the other, each at its
time. -/
def containAll (cfg : RedisConfig) (calls : List (ℕ × DetectionEvent)) (db : Db) : Db :=
  calls.foldl (fun db c => (applyContainment cfg c.1 c.2 db).2) db

/-- What one decision about user `u` gives rise to. -/
structure Findings (u : String) (ds : List DetectionEvent) : Prop where
  userId : ∀ d ∈ ds, d.userId = u
  kinds : ∀ d ∈ ds, hardSignal d.detectionType = true ∨ d.detectionType = "geo_velocity_anomaly"
  ids : ∀ d ∈ ds, ∀ d' ∈ ds, d.detectionId = d'.detectionId → d = d'
  geo : ∀ d ∈ ds, ∀ d' ∈ ds, d.detectionType = "geo_velocity_anomaly" →
    d'.detectionType = "geo_velocity_anomaly" → d = d'

/-- The receipts and rules after the detections `called` were contained. -/
structure Tally (u : String) (ds called : List DetectionEvent) (db : Db) : Prop where
  receipts : ∀ d ∈ ds, receipt db d.detectionId ≠ none ↔ d ∈ called
  quarantined : db (quarantineKey u) ≠ none ↔ ∃ d ∈ called, hardSignal d.detectionType = true
  stepUp : db (stepUpKey u) ≠ none ↔ ∃ d ∈ called, d.detectionType = "geo_velocity_anomaly"

section

variable {cfg : RedisConfig} {u : String} {ds called : List DetectionEvent} {d : DetectionEvent} {db : Db}

theorem Findings.known (h : Findings u ds) (hd : d ∈ ds) : Known d.detectionType := by
  rcases h.kinds d hd with hhard | hgeo
  · simp only [hardSignal, decide_eq_true_eq] at hhard
    rcases hhard with htype | htype <;> simp [Known, htype]
  · simp [Known, hgeo]

theorem plan_hard (cfg : RedisConfig) (hd : hardSignal d.detectionType = true) (pending : Bool) :
    plan cfg d pending = ([.quarantine], [(quarantineKey d.userId, cfg.quarantineTtlSeconds)]) := by
  simp only [hardSignal, decide_eq_true_eq] at hd
  simp [plan, hd]

theorem not_geo_of_hard (hd : hardSignal d.detectionType = true) : d.detectionType ≠ "geo_velocity_anomaly" := by
  intro heq
  rw [heq] at hd
  exact absurd hd (by decide)

/-- A plan for one key leaves the other rule of the user alone. -/
theorem containment_frame {now : ℕ} (hnone : receipt db d.detectionId = none) (hknown : Known d.detectionType)
    {k : String} (hreceipt : k ≠ receiptKey d.detectionId)
    (hplan : k ∉ (plan cfg d (db (stepUpKey d.userId)).isSome).2.map Prod.fst) :
    (applyContainment cfg now d db).2 k = db k := by
  rw [applyContainment_of_known hnone ((plan_ne_nil_iff cfg d _).mpr hknown)]
  exact writeAll_frame _ _ _ _ _ (by simp only [writtenKeys, hreceipt, hplan]; rfl)

theorem containment_rule {now : ℕ} (hnone : receipt db d.detectionId = none) (hknown : Known d.detectionType)
    {k : String} (hplan : k ∈ (plan cfg d (db (stepUpKey d.userId)).isSome).2.map Prod.fst) :
    (applyContainment cfg now d db).2 k ≠ none := by
  rw [applyContainment_of_known hnone ((plan_ne_nil_iff cfg d _).mpr hknown)]
  exact writeAll_rule _ _ _ _ _ hplan

/-- The receipts after one more detection was contained for the first time. -/
theorem Tally.receipts_call (h : Tally u ds called db) (hf : Findings u ds) (hd : d ∈ ds)
    (hnone : receipt db d.detectionId = none) (now : ℕ) {d' : DetectionEvent} (hd' : d' ∈ ds) :
    receipt (applyContainment cfg now d db).2 d'.detectionId ≠ none ↔ d' ∈ called ++ [d] := by
  obtain ⟨hown, hother⟩ := @receipt_applyContainment cfg d now db hnone (hf.known hd)
  rw [List.mem_append, List.mem_singleton]
  by_cases heq : d' = d
  · rw [heq]
    exact ⟨fun _ => .inr rfl, fun _ => hown⟩
  · rw [hother _ fun hid => heq (hf.ids d' hd' d hd hid), h.receipts d' hd']
    exact ⟨.inl, fun hor => hor.resolve_right heq⟩

/-- A first call for a hard signal quarantines, and leaves the step-up alone. -/
theorem Tally.callHard (h : Tally u ds called db) (hf : Findings u ds) (hd : d ∈ ds)
    (hnone : receipt db d.detectionId = none) (hhard : hardSignal d.detectionType = true) (now : ℕ) :
    Tally u ds (called ++ [d]) (applyContainment cfg now d db).2 where
  receipts _ hd' := h.receipts_call hf hd hnone now hd'
  quarantined := by
    refine ⟨fun _ => ⟨d, by simp, hhard⟩, fun _ => containment_rule hnone (hf.known hd) ?_⟩
    rw [plan_hard cfg hhard, hf.userId d hd]
    exact List.mem_singleton.mpr rfl
  stepUp := by
    have hkey : stepUpKey u ≠ receiptKey d.detectionId := append_ne_of_incomparable (by decide) _ _
    have hplan : stepUpKey u ∉ (plan cfg d (db (stepUpKey d.userId)).isSome).2.map Prod.fst :=
      stepUpKey_notMem_plan cfg (fun hgeo => not_geo_of_hard hhard hgeo.1) _
    rw [containment_frame hnone (hf.known hd) hkey hplan, h.stepUp]
    refine ⟨fun ⟨d', hd', hgeo⟩ => ⟨d', List.mem_append_left _ hd', hgeo⟩, fun ⟨d', hd', hgeo⟩ => ?_⟩
    rcases List.mem_append.mp hd' with hold | hnew
    · exact ⟨d', hold, hgeo⟩
    · rw [List.mem_singleton.mp hnew] at hgeo
      exact absurd hgeo (not_geo_of_hard hhard)

/-- A first call for the anomaly asks for the step-up: none is pending, since there is no other anomaly. -/
theorem Tally.callGeo (h : Tally u ds called db) (hf : Findings u ds) (hcalled : called ⊆ ds) (hd : d ∈ ds)
    (hnone : receipt db d.detectionId = none) (hgeo : d.detectionType = "geo_velocity_anomaly") (now : ℕ) :
    Tally u ds (called ++ [d]) (applyContainment cfg now d db).2 := by
  have hnew : d ∉ called := fun hmem => (h.receipts d hd).mpr hmem hnone
  have hpending : (db (stepUpKey d.userId)).isSome = false := by
    rw [hf.userId d hd, Option.isSome_eq_false_iff, Option.isNone_iff_eq_none]
    by_contra hne
    obtain ⟨d', hd', hgeo'⟩ := h.stepUp.mp hne
    exact hnew (hf.geo d' (hcalled hd') d hd hgeo' hgeo ▸ hd')
  have hplan : (plan cfg d (db (stepUpKey d.userId)).isSome).2.map Prod.fst = [stepUpKey u] := by
    rw [plan_geo cfg ⟨hgeo, hf.userId d hd⟩, hpending]
    rfl
  refine ⟨fun d' hd' => h.receipts_call hf hd hnone now hd', ?_, ?_⟩
  · have hkey : quarantineKey u ≠ receiptKey d.detectionId := append_ne_of_incomparable (by decide) _ _
    have hother : quarantineKey u ≠ stepUpKey u := append_ne_of_incomparable (by decide) _ _
    rw [containment_frame hnone (hf.known hd) hkey (by rw [hplan]; simpa using hother), h.quarantined]
    refine ⟨fun ⟨d', hd', hhard⟩ => ⟨d', List.mem_append_left _ hd', hhard⟩, fun ⟨d', hd', hhard⟩ => ?_⟩
    rcases List.mem_append.mp hd' with hold | hlast
    · exact ⟨d', hold, hhard⟩
    · rw [List.mem_singleton.mp hlast] at hhard
      exact absurd hgeo (not_geo_of_hard hhard)
  · refine ⟨fun _ => ⟨d, by simp, hgeo⟩, fun _ => containment_rule hnone (hf.known hd) ?_⟩
    rw [hplan]
    exact List.mem_singleton.mpr rfl

/-- A call for a detection that was contained before changes nothing. -/
theorem Tally.callAgain (h : Tally u ds called db) (hd : d ∈ ds) (hagain : receipt db d.detectionId ≠ none) (now : ℕ) :
    Tally u ds (called ++ [d]) (applyContainment cfg now d db).2 := by
  obtain ⟨p, hp⟩ := Option.ne_none_iff_exists'.mp hagain
  have hmem : d ∈ called := (h.receipts d hd).mp hagain
  have hsame : ∀ d', d' ∈ called ++ [d] ↔ d' ∈ called := by
    intro d'
    rw [List.mem_append, List.mem_singleton]
    exact ⟨fun hor => hor.elim id fun heq => heq ▸ hmem, .inl⟩
  rw [applyContainment_of_receipt hp]
  refine ⟨fun d' hd' => ?_, ?_, ?_⟩
  · rw [hsame]
    exact h.receipts d' hd'
  · simp only [hsame]
    exact h.quarantined
  · simp only [hsame]
    exact h.stepUp

theorem Tally.call (h : Tally u ds called db) (hf : Findings u ds) (hcalled : called ⊆ ds) (hd : d ∈ ds) (now : ℕ) :
    Tally u ds (called ++ [d]) (applyContainment cfg now d db).2 := by
  by_cases hagain : receipt db d.detectionId = none
  · rcases hf.kinds d hd with hhard | hgeo
    · exact h.callHard hf hd hagain hhard now
    · exact h.callGeo hf hcalled hd hagain hgeo now
  · exact h.callAgain hd hagain now

theorem Tally.calls (hf : Findings u ds) {calls : List (ℕ × DetectionEvent)} (hcalls : ∀ c ∈ calls, c.2 ∈ ds)
    (h : Tally u ds called db) (hcalled : called ⊆ ds) :
    Tally u ds (called ++ calls.map Prod.snd) (containAll cfg calls db) := by
  induction calls generalizing called db with
  | nil => simpa [containAll] using h
  | cons c calls ih =>
      have hd : c.2 ∈ ds := hcalls c (by simp)
      have hstep : Tally u ds (called ++ [c.2]) (applyContainment cfg c.1 c.2 db).2 := h.call hf hcalled hd c.1
      have hsub : called ++ [c.2] ⊆ ds := by
        refine List.append_subset.mpr ⟨hcalled, ?_⟩
        simpa using hd
      have hrest := ih (fun c' hc' => hcalls c' (List.mem_cons_of_mem _ hc')) hstep hsub
      rw [List.map_cons]
      simpa [containAll] using hrest

end

end Rtace.Containment

namespace Rtace.Engine

open Lib Redis Containment

/-! ## From the verdict to the rules -/

theorem cached_of_cachedDecision {tx : Transaction} {db : Db} {d : Decision} (h : (cachedDecision tx db).1 = some d) :
    d.cached = true := by
  simp only [cachedDecision, bind_apply, get_apply] at h
  generalize payload (db (resultKey tx.eventId)) = found at h
  rcases found with _ | _ | j
  · cases h
  · cases h
  · obtain ⟨d', -, rfl⟩ := Option.map_eq_some_iff.mp h
    rfl

/-- Without a rule in force, an answer that is not cached is the score of some reply of the script. -/
theorem scored_of_decide {rt : Runtime} {cfg : Config} {now : ℕ} {call : Call} {tx : Transaction} {db db' : Db}
    {d : Decision} (hids : ¬ (tx.eventId = "" ∨ tx.userId = ""))
    (hfree : refusal (tx.stamped call) (activeRules db (tx.stamped call)) = none)
    (h : decide rt cfg now call tx db = (.ok d, db')) (hfresh : d.cached = false) :
    ∃ r, d = scored cfg call (tx.stamped call) r := by
  by_cases hagain : (runTxCheck rt cfg now (tx.stamped call) db).1.replayStatus = .redelivery
  · rw [decide_redelivered hids hfree hagain] at h
    dsimp only at h
    split at h
    · rename_i prev hprev
      obtain ⟨hd, -⟩ := Prod.mk.inj h
      obtain rfl := Except.ok.inj hd
      rw [cached_of_cachedDecision hprev] at hfresh
      cases hfresh
    · exact ⟨_, (Except.ok.inj (Prod.mk.inj h).1).symm⟩
  · rw [decide_scored hids hfree hagain] at h
    exact ⟨_, (Except.ok.inj (Prod.mk.inj h).1).symm⟩

/-- The reasons have different types, each re-emitted. -/
theorem interpret_types (cfg : Config) (tx : Transaction) (r : TxReply) :
    (∀ x ∈ interpret cfg tx r, hardSignal x.type = true ∨ x.type = "geo_velocity_anomaly") ∧
      ∀ x ∈ interpret cfg tx r, ∀ y ∈ interpret cfg tx r, x.type = y.type → x = y := by
  simp only [interpret]
  split <;> split <;> split <;> simp [hardSignal]

theorem reemitted_of_kind {type : String} (h : hardSignal type = true ∨ type = "geo_velocity_anomaly") :
    reemitted type = true := by
  simp only [hardSignal, decide_eq_true_eq] at h
  simp only [reemitted, decide_eq_true_eq]
  tauto

/-- The part of a detection id that its type determines. -/
def idFamily (type : String) : String := "det-" ++ idPrefixOf type ++ "-"

theorem idFamily_incomparable {t t' : String} (ht : hardSignal t = true ∨ t = "geo_velocity_anomaly")
    (ht' : hardSignal t' = true ∨ t' = "geo_velocity_anomaly") (hne : t ≠ t') :
    Incomparable (idFamily t) (idFamily t') := by
  simp only [hardSignal, decide_eq_true_eq] at ht ht'
  rcases ht with (rfl | rfl) | rfl <;> rcases ht' with (rfl | rfl) | rfl <;>
    first
      | exact absurd rfl hne
      | decide

theorem mem_idFamily (rt : Runtime) (ref : String) {d : DetectionEvent}
    (hd : hardSignal d.detectionType = true ∨ d.detectionType = "geo_velocity_anomaly") :
    ∃ x, (assignStableId rt ref d).detectionId = idFamily d.detectionType ++ x := by
  have htype : d.detectionType ≠ "credential_stuffing" := by
    intro heq
    rw [heq] at hd
    exact absurd hd (by decide)
  exact ⟨_, by simp only [assignStableId, htype, false_and, if_false, stableDetectionId, idFamily]; rfl⟩

/-- Detections of these types under one record have different ids: already their prefixes differ. -/
theorem assignStableId_type_inj (rt : Runtime) (ref : String) {d d' : DetectionEvent}
    (hd : hardSignal d.detectionType = true ∨ d.detectionType = "geo_velocity_anomaly")
    (hd' : hardSignal d'.detectionType = true ∨ d'.detectionType = "geo_velocity_anomaly")
    (h : (assignStableId rt ref d).detectionId = (assignStableId rt ref d').detectionId) :
    d.detectionType = d'.detectionType := by
  obtain ⟨x, hx⟩ := mem_idFamily rt ref hd
  obtain ⟨y, hy⟩ := mem_idFamily rt ref hd'
  by_contra hne
  rw [hx, hy] at h
  exact append_ne_of_incomparable (idFamily_incomparable hd hd' hne) x y h

/-- What the detection engine re-emits of a scored decision. -/
theorem findings_scored (rt : Runtime) (ref : String) (tx : TransactionEvent) (cfg : Config) (call : Call)
    (g : Transaction) (r : TxReply) :
    Findings tx.userId (((interpret cfg g r).map (reasonDetection tx (scored cfg call g r))).map (assignStableId rt ref)) := by
  obtain ⟨hkinds, hunique⟩ := interpret_types cfg g r
  have hmem : ∀ x ∈ ((interpret cfg g r).map (reasonDetection tx (scored cfg call g r))).map (assignStableId rt ref),
      ∃ y ∈ interpret cfg g r, x = assignStableId rt ref (reasonDetection tx (scored cfg call g r) y) := by
    intro x hx
    obtain ⟨z, hz, rfl⟩ := List.mem_map.mp hx
    obtain ⟨y, hy, rfl⟩ := List.mem_map.mp hz
    exact ⟨y, hy, rfl⟩
  refine ⟨fun x hx => ?_, fun x hx => ?_, fun x hx x' hx' hid => ?_, fun x hx x' hx' hgeo hgeo' => ?_⟩
  · obtain ⟨y, -, rfl⟩ := hmem x hx
    rfl
  · obtain ⟨y, hy, rfl⟩ := hmem x hx
    exact hkinds y hy
  · obtain ⟨y, hy, rfl⟩ := hmem x hx
    obtain ⟨y', hy', rfl⟩ := hmem x' hx'
    rw [hunique y hy y' hy' (assignStableId_type_inj rt ref (hkinds y hy) (hkinds y' hy') hid)]
  · obtain ⟨y, hy, rfl⟩ := hmem x hx
    obtain ⟨y', hy', rfl⟩ := hmem x' hx'
    rw [hunique y hy y' hy' (hgeo.trans hgeo'.symm)]

/-- The verdict by which kinds of signals there are. -/
theorem containmentVerdict_iff {reasons : List Reason}
    (hkinds : ∀ x ∈ reasons, hardSignal x.type = true ∨ x.type = "geo_velocity_anomaly") :
    (containmentVerdict reasons = .deny ↔ ∃ x ∈ reasons, hardSignal x.type = true) ∧
    (containmentVerdict reasons = .challenge ↔
      (¬ ∃ x ∈ reasons, hardSignal x.type = true) ∧ ∃ x ∈ reasons, x.type = "geo_velocity_anomaly") ∧
    (containmentVerdict reasons = .allow ↔
      (¬ ∃ x ∈ reasons, hardSignal x.type = true) ∧ ¬ ∃ x ∈ reasons, x.type = "geo_velocity_anomaly") := by
  unfold containmentVerdict
  by_cases hhard : ∃ x ∈ reasons, hardSignal x.type = true
  · rw [if_pos (List.any_eq_true.mpr hhard)]
    simp [hhard]
  · rw [if_neg fun hany => hhard (List.any_eq_true.mp hany)]
    cases reasons with
    | nil => simp
    | cons x rest =>
        have hgeo : ∃ y ∈ x :: rest, y.type = "geo_velocity_anomaly" :=
          ⟨x, List.mem_cons_self, (hkinds x List.mem_cons_self).resolve_left fun hx => hhard ⟨x, List.mem_cons_self, hx⟩⟩
        simp only [List.isEmpty_cons, Bool.false_eq_true, if_false, hhard, hgeo]
        simp

/-- A decision made without a rule in force, with separating thresholds, and read by the detection engine:
once the containment engine has dealt with everything that was re-emitted, in any order and any number
of times, the user is quarantined exactly if the verdict was DENY, owes a step-up and no more
exactly if it was CHALLENGE, and is free exactly if it was ALLOW. -/
theorem verdict_enforced {rt : Runtime} {gcfg : Config} {cfg : RedisConfig} {now : ℕ} {call : Call} {g : Transaction}
    {tx : TransactionEvent} {d : Decision} {db db' later : Db} {ref : String} {found : List DetectionEvent}
    {calls : List (ℕ × DetectionEvent)} (hsep : gcfg.Separates) (hids : ¬ (g.eventId = "" ∨ g.userId = ""))
    (hfree : refusal (g.stamped call) (activeRules db (g.stamped call)) = none)
    (hdecide : decide rt gcfg now call g db = (.ok d, db')) (hfresh : d.cached = false)
    (hstored : payload (later (resultKey tx.eventId)) = some (.json d.toJson))
    (hquarantine : later (quarantineKey tx.userId) = none) (hstepUp : later (stepUpKey tx.userId) = none)
    (hfound : detectionsFromDecision tx (payload (later (resultKey tx.eventId))) = .ok found)
    (hreceipts : ∀ x ∈ found, receipt later (assignStableId rt ref x).detectionId = none)
    (hcalls : ∀ x, x ∈ calls.map Prod.snd ↔ x ∈ found.map (assignStableId rt ref)) :
    (d.verdict = .deny ↔ containAll cfg calls later (quarantineKey tx.userId) ≠ none) ∧
    (d.verdict = .challenge ↔ containAll cfg calls later (quarantineKey tx.userId) = none ∧
      containAll cfg calls later (stepUpKey tx.userId) ≠ none) ∧
    (d.verdict = .allow ↔ containAll cfg calls later (quarantineKey tx.userId) = none ∧
      containAll cfg calls later (stepUpKey tx.userId) = none) := by
  obtain ⟨r, rfl⟩ := scored_of_decide hids hfree hdecide hfresh
  obtain ⟨hkinds, -⟩ := interpret_types gcfg (g.stamped call) r
  -- everything the decision found is re-emitted
  obtain rfl : found = (interpret gcfg (g.stamped call) r).map (reasonDetection tx (scored gcfg call (g.stamped call) r)) := by
    rw [hstored, detectionsFromDecision_toJson] at hfound
    rw [← Except.ok.inj hfound]
    congr 1
    exact List.filter_eq_self.mpr fun x hx => reemitted_of_kind (hkinds x hx)
  have hfindings := findings_scored rt ref tx gcfg call (g.stamped call) r
  have hstart : Tally tx.userId (((interpret gcfg (g.stamped call) r).map
      (reasonDetection tx (scored gcfg call (g.stamped call) r))).map (assignStableId rt ref)) [] later := by
    refine ⟨fun x hx => ?_, by simp [hquarantine], by simp [hstepUp]⟩
    obtain ⟨y, hy, rfl⟩ := List.mem_map.mp hx
    simp [hreceipts y hy]
  have htally : Tally tx.userId _ ([] ++ calls.map Prod.snd) (containAll cfg calls later) :=
    hstart.calls hfindings (fun c hc => (hcalls c.2).mp (List.mem_map_of_mem hc)) (List.nil_subset _)
  rw [List.nil_append] at htally
  -- a signal of a kind is among the reasons exactly if its detection was contained
  have hkind : ∀ P : String → Prop, (∃ x ∈ calls.map Prod.snd, P x.detectionType) ↔
      ∃ x ∈ interpret gcfg (g.stamped call) r, P x.type := by
    intro P
    simp only [hcalls, List.mem_map]
    constructor
    · rintro ⟨_, ⟨_, ⟨y, hy, rfl⟩, rfl⟩, hP⟩
      exact ⟨y, hy, hP⟩
    · rintro ⟨y, hy, hP⟩
      exact ⟨_, ⟨_, ⟨y, hy, rfl⟩, rfl⟩, hP⟩
  have hhard := htally.quarantined.trans (hkind fun t => hardSignal t = true)
  have hgeo := htally.stepUp.trans (hkind fun t => t = "geo_velocity_anomaly")
  have hverdict : (scored gcfg call (g.stamped call) r).verdict
      = containmentVerdict (interpret gcfg (g.stamped call) r) := verdict_eq_containmentVerdict hsep _ r
  rw [hverdict]
  simpa only [← hhard, ← hgeo, not_not] using containmentVerdict_iff hkinds

namespace PolicySample

open Rtace.Sample

/-- One transaction is a burst. -/
def config : Config := { burstThreshold := 0 }

theorem config_separates : config.Separates := ⟨by decide, by decide, by decide⟩

/-- The script's reply to the first transaction of the sample, and what it leaves. -/
def checked : TxReply × Db := runTxCheck runtime config 0 (transaction "e1") fun _ => none

def decision : Decision := scored config call (transaction "e1") checked.1

def decided : Db := (storeDecision config 0 (transaction "e1") decision checked.2).2

theorem decision_deny : decision.verdict = .deny := by decide +kernel

theorem checked_first : checked.1.replayStatus = .first := by decide +kernel

theorem decide_decision : decide runtime config 0 call (transaction "e1") (fun _ => none) = (.ok decision, decided) := by
  have hnew : (runTxCheck runtime config 0 ((transaction "e1").stamped call) fun _ => none).1.replayStatus ≠ .redelivery := by
    rw [stamped, show (runTxCheck runtime config 0 (transaction "e1") fun _ => none) = checked from rfl, checked_first]
    simp
  rw [decide_scored (by decide) (by rw [stamped]; rfl) hnew, stamped]
  rfl

theorem decided_result : payload (decided (resultKey "e1")) = some (.json decision.toJson) := by
  have hreplay : checked.1.replayStatus ≠ .replay := by
    rw [checked_first]
    simp
  exact storeDecision_marshal (marshal_scored call hreplay) _

/-- No rule and no receipt comes with a decision. -/
theorem decided_none {k : String} (hk : k ∈ keyFamilies [quarantineKeyPrefix, stepUpKeyPrefix, receiptKeyPrefix]) :
    decided k = none := by
  have hscript : k ∉ detectionKeys := Set.disjoint_left.mp (keyFamilies_disjoint (by decide)) hk
  have hresult : k ∉ keyFamilies [resultKeyPrefix] := Set.disjoint_left.mp (keyFamilies_disjoint (by decide)) hk
  have hframe := decide_untouched runtime config 0 call (transaction "e1") (fun _ => none)
    (fun hmem => hscript (txKeys_subset _ _ hmem)) fun heq => hresult (heq ▸ mem_keyFamilies (by simp) _)
  rwa [decide_decision] at hframe

end PolicySample

/-- A burst of one transaction on an empty Redis: denied, and quarantined although its detection is
contained twice. -/
theorem verdict_enforced_burst :
    ∃ calls, PolicySample.decision.verdict = .deny ∧
      containAll {} (calls ++ calls) PolicySample.decided (quarantineKey "u1") ≠ none := by
  have hfound := detectionsFromDecision_toJson (Rtace.Sample.tx "e1") PolicySample.decision
  rw [← PolicySample.decided_result] at hfound
  let found := (PolicySample.decision.reasons.filter fun r => reemitted r.type).map
    (reasonDetection (Rtace.Sample.tx "e1") PolicySample.decision)
  let calls : List (ℕ × DetectionEvent) :=
    (found.map (assignStableId Rtace.Sample.runtime "tx-events:0:0")).map fun x => (0, x)
  have hcalls : ∀ x, x ∈ (calls ++ calls).map Prod.snd ↔
      x ∈ found.map (assignStableId Rtace.Sample.runtime "tx-events:0:0") := by
    simp [calls, Function.comp_def]
  refine ⟨calls, PolicySample.decision_deny, ?_⟩
  refine (verdict_enforced PolicySample.config_separates (by decide) (by rw [Rtace.Sample.stamped]; rfl)
    PolicySample.decide_decision rfl PolicySample.decided_result (PolicySample.decided_none (mem_keyFamilies (by simp) _))
    (PolicySample.decided_none (mem_keyFamilies (by simp) _)) hfound (fun x _ => ?_) hcalls).1.mp
    PolicySample.decision_deny
  have hnone : PolicySample.decided (receiptKey (assignStableId Rtace.Sample.runtime "tx-events:0:0" x).detectionId)
      = none := PolicySample.decided_none (mem_keyFamilies (by simp) _)
  rw [receipt, hnone]
  rfl

end Rtace.Engine
