import Rtace.Containment.AtMostOnce

/-!
# Escalation of geo anomalies

The first geo anomaly of a user asks for a step-up, and each further one, while the step-up is pending,
escalates to a quarantine. With several anomalies contained at once, exactly one of them is the first.
-/

namespace Rtace.Containment

open Lib Redis

/-- `d` is a geo anomaly of user `u`. -/
def GeoOf (u : String) (d : DetectionEvent) : Prop := d.detectionType = "geo_velocity_anomaly" ∧ d.userId = u

theorem plan_geo {u : String} {d : DetectionEvent} (cfg : RedisConfig) (hd : GeoOf u d) (pending : Bool) :
    plan cfg d pending = if pending then
      ([.stepUpAuth, .quarantine],
        [(stepUpKey u, cfg.stepUpTtlSeconds), (quarantineKey u, cfg.quarantineTtlSeconds)])
    else ([.stepUpAuth], [(stepUpKey u, cfg.stepUpTtlSeconds)]) := by
  obtain ⟨htype, rfl⟩ := hd
  simp [plan, htype]

/-- Only a geo anomaly of the user writes the user's step-up. -/
theorem stepUpKey_notMem_plan {u : String} {d : DetectionEvent} (cfg : RedisConfig) (hd : ¬ GeoOf u d)
    (pending : Bool) : stepUpKey u ∉ (plan cfg d pending).2.map Prod.fst := by
  have hq : ∀ v, stepUpKey u ≠ quarantineKey v := fun v => append_ne_of_incomparable (by decide) _ _
  have hb : ∀ ip, stepUpKey u ≠ ipBlockKey ip := fun ip => append_ne_of_incomparable (by decide) _ _
  unfold plan
  split
  · simp [hq]
  · split
    · split <;> simp [hq, hb]
    · split
      · rename_i htype
        have hu : stepUpKey u ≠ stepUpKey d.userId := by
          intro heq
          exact hd ⟨htype, by simpa [stepUpKey, String.ext_iff] using heq.symm⟩
        cases pending <;> simp [hq, hu]
      · simp

/-- The step-up of a user is written by the transactions of the user's geo anomalies; nothing else
changes it, except that it may be cleared or expire. -/
theorem stepUp_step {cfg : RedisConfig} {s t : System} {l : Label} {u : String} (hs : s.Sound cfg)
    (h : ContainStep cfg s l t) :
    (∃ d a r, l = .exec d a r ∧ GeoOf u d ∧ t.db (stepUpKey u) ≠ none) ∨
      (∀ d a r, l = .exec d a r → ¬ GeoOf u d) ∧
        (t.db (stepUpKey u) = s.db (stepUpKey u) ∨ l.detection = none ∧ t.db (stepUpKey u) = none) := by
  cases l with
  | exec d a r =>
      by_cases hd : GeoOf u d
      · refine .inl ⟨d, a, r, rfl, hd, ?_⟩
        rw [(exec_spec hs h).2.2.2]
        refine writeAll_rule _ _ _ _ _ ?_
        rw [plan_geo cfg hd]
        split <;> simp
      · refine .inr ⟨fun d' a' r' heq => ?_, .inl ?_⟩
        · simp only [Label.exec.injEq] at heq
          exact heq.1 ▸ hd
        · have hkey : stepUpKey u ≠ receiptKey d.detectionId := append_ne_of_incomparable (by decide) _ _
          exact exec_frame hs h hkey (stepUpKey_notMem_plan cfg hd _)
  | _ =>
      refine .inr ⟨by simp, ?_⟩
      rcases key_step h (by simp) (stepUpKey u) with heq | ⟨hl, hgone | ⟨-, hmem⟩⟩
      · exact .inl heq
      · exact .inr ⟨hl, hgone⟩
      · have hstepUp : stepUpKey u ∈ keyFamilies [stepUpKeyPrefix] := mem_keyFamilies (by simp) _
        exact absurd hmem (Set.disjoint_left.mp (keyFamilies_disjoint (by decide)) hstepUp)

/-! ## Concurrent geo anomalies -/

/-- A step while the geo anomalies `ds` of user `u` are contained: no other call is for one of their ids
or is a geo anomaly of `u`, and neither the step-up of `u` nor their receipts are cleared or expire. -/
structure CalmStep (cfg : RedisConfig) (u : String) (ds : List DetectionEvent) (s : System) (l : Label)
    (t : System) : Prop where
  step : ContainStep cfg s l t
  calls : ∀ d, l.detection = some d → GeoOf u d ∨ d.detectionId ∈ ds.map (·.detectionId) → d ∈ ds
  stepUp : l.detection = none → s.db (stepUpKey u) ≠ none → t.db (stepUpKey u) ≠ none
  receipts : ∀ d ∈ ds, l.detection = none → receipt s.db d.detectionId ≠ none →
    receipt t.db d.detectionId ≠ none

/-- Exactly one of `ds` got a step-up, and the others were escalated. -/
def Escalates (ds : List DetectionEvent) (ls : List Label) : Prop :=
  ∃ d₁ ∈ ds, (∀ l ∈ ls, ∀ a, l.returned = some (d₁, a) → a = [.stepUpAuth]) ∧
    ∀ d ∈ ds, d ≠ d₁ → ∀ l ∈ ls, ∀ a, l.returned = some (d, a) → a = [.stepUpAuth, .quarantine]

/-- Either no anomaly has been contained yet, or one got the step-up and the others that have a receipt
were escalated. -/
def Escalating (u : String) (ds : List DetectionEvent) (s : System) : Prop :=
  (s.db (stepUpKey u) = none ∧ ∀ d ∈ ds, receipt s.db d.detectionId = none) ∨
    s.db (stepUpKey u) ≠ none ∧ ∃ d₁ ∈ ds, receipt s.db d₁.detectionId = some (encodeActions [.stepUpAuth]) ∧
      ∀ d ∈ ds, d ≠ d₁ → receipt s.db d.detectionId = none ∨
        receipt s.db d.detectionId = some (encodeActions [.stepUpAuth, .quarantine])

section Escalation

variable {cfg : RedisConfig} {u : String} {ds : List DetectionEvent} {s t : System} {l : Label}

/-- A step that is no transaction of `d` leaves the receipt of `d` alone. -/
theorem CalmStep.receipt_eq (hs : s.Sound cfg) (h : CalmStep cfg u ds s l t) {d : DetectionEvent}
    (hd : d ∈ ds) (hw : l.writes d.detectionId = false) :
    receipt t.db d.detectionId = receipt s.db d.detectionId := by
  rcases receipt_step (i := d.detectionId) hs h.step with ⟨d', a, r, rfl, hi, -, -⟩ | ⟨-, heq | ⟨hl, hgone⟩⟩
  · simp [Label.writes, hi] at hw
  · exact heq
  · cases hp : receipt s.db d.detectionId with
    | none => exact hgone
    | some p => exact absurd hgone (h.receipts d hd hl (by rw [hp]; simp))

/-- One step keeps the escalation in order. -/
theorem Escalating.step (hs : s.Sound cfg) (hids : (ds.map (·.detectionId)).Nodup)
    (hgeo : ∀ d ∈ ds, GeoOf u d) (hI : Escalating u ds s) (h : CalmStep cfg u ds s l t) :
    Escalating u ds t := by
  have hinj : ∀ d ∈ ds, ∀ d' ∈ ds, d.detectionId = d'.detectionId → d = d' :=
    fun d hd d' hd' => List.inj_on_of_nodup_map hids hd hd'
  rcases stepUp_step (u := u) hs h.step with ⟨d, a, r, rfl, hd, hset⟩ | ⟨hother, hstep⟩
  · -- the transaction of one of the anomalies
    have hmem : d ∈ ds := h.calls d rfl (.inl hd)
    obtain ⟨hnone, hact, -, -⟩ := exec_spec hs h.step
    have hnew : receipt t.db d.detectionId = some (encodeActions a) := by
      rcases receipt_step (i := d.detectionId) hs h.step with ⟨d', a', r', heq, -, -, hnew⟩ | ⟨hw, -⟩
      · cases heq
        exact hnew
      · simp [Label.writes] at hw
    have hkeep : ∀ d' ∈ ds, d' ≠ d → receipt t.db d'.detectionId = receipt s.db d'.detectionId := by
      intro d' hd' hne
      refine h.receipt_eq hs hd' ?_
      exact decide_eq_false fun heq => hne (hinj d' hd' d hmem heq.symm)
    rw [hd.2, plan_geo cfg hd] at hact
    rcases hI with ⟨habsent, hfree⟩ | ⟨hpresent, d₁, hd₁, hfirst, hrest⟩
    · -- it is the first
      rw [habsent, Option.isSome_none] at hact
      refine .inr ⟨hset, d, hmem, by rw [hnew, hact]; rfl, fun d' hd' hne => .inl ?_⟩
      rw [hkeep d' hd' hne, hfree d' hd']
    · -- a step-up is pending
      rw [Option.isSome_iff_ne_none.mpr hpresent] at hact
      have hne₁ : d₁ ≠ d := by
        rintro rfl
        rw [hnone] at hfirst
        cases hfirst
      refine .inr ⟨hset, d₁, hd₁, by rw [hkeep d₁ hd₁ hne₁, hfirst], fun d' hd' hne => ?_⟩
      rcases eq_or_ne d' d with rfl | hne'
      · exact .inr (by rw [hnew, hact]; rfl)
      · rw [hkeep d' hd' hne']
        exact hrest d' hd' hne
  · -- any other step changes neither the step-up nor a receipt of the anomalies
    have hsame : ∀ d ∈ ds, receipt t.db d.detectionId = receipt s.db d.detectionId := by
      intro d hd
      refine h.receipt_eq hs hd ?_
      rw [Bool.eq_false_iff]
      intro hw
      cases l with
      | exec d' a r =>
          have hid : d'.detectionId = d.detectionId := of_decide_eq_true hw
          have hmem : d' ∈ ds := h.calls d' rfl (.inr (hid ▸ List.mem_map_of_mem hd))
          exact hother d' a r rfl (hgeo d' hmem)
      | _ => simp [Label.writes] at hw
    have hkey : s.db (stepUpKey u) = none ↔ t.db (stepUpKey u) = none := by
      rcases hstep with heq | ⟨hl, hgone⟩
      · rw [heq]
      · exact ⟨fun _ => hgone, fun hnone => not_not.mp fun hsome => h.stepUp hl hsome hnone⟩
    rcases hI with ⟨habsent, hfree⟩ | ⟨hpresent, d₁, hd₁, hfirst, hrest⟩
    · exact .inl ⟨hkey.mp habsent, fun d hd => by rw [hsame d hd, hfree d hd]⟩
    · refine .inr ⟨hkey.not.mp hpresent, d₁, hd₁, by rw [hsame d₁ hd₁, hfirst], fun d hd hne => ?_⟩
      rw [hsame d hd]
      exact hrest d hd hne

/-- What a completed call for one of the anomalies returned is what its receipt says. -/
theorem returned_eq_receipt {ls : List Label} (hs : s.Quiet) (h : Run (CalmStep cfg u ds) s ls t)
    (hgeo : ∀ d ∈ ds, GeoOf u d) {d : DetectionEvent} (hd : d ∈ ds) {a : List ActionKind} (hl : l ∈ ls)
    (hret : l.returned = some (d, a)) :
    ∃ p, receipt t.db d.detectionId = some p ∧ decodeActions p = some a := by
  have htold : Told cfg d.detectionId ls t :=
    told_run hs (h.mono fun _ _ _ hstep => ⟨hstep.step, hstep.receipts d hd⟩)
  rcases returned_cases hret with hr | ⟨rfl, -⟩
  · exact htold.agree a (List.mem_filterMap.mpr ⟨l, hl, hr⟩)
  · have hunknown := (known_run hs (h.mono fun _ _ _ hstep => hstep.step)).2 d hl
    exact absurd (by simp [Known, (hgeo d hd).1]) hunknown

/-- Concurrent geo anomalies of one user: one step-up, and the others escalate. -/
theorem escalates_run {ls : List Label} (hs : s.Quiet) (hne : ds ≠ [])
    (hids : (ds.map (·.detectionId)).Nodup) (hgeo : ∀ d ∈ ds, GeoOf u d)
    (hstepUp : s.db (stepUpKey u) = none) (hnew : ∀ d ∈ ds, receipt s.db d.detectionId = none)
    (h : Run (CalmStep cfg u ds) s ls t) (hdone : ∀ d ∈ ds, ∃ l ∈ ls, ∃ a, l.returned = some (d, a)) :
    Escalates ds ls := by
  have hI : t.Sound cfg ∧ Escalating u ds t :=
    h.invariant (I := fun s => s.Sound cfg ∧ Escalating u ds s) ⟨hs.sound cfg, .inl ⟨hstepUp, hnew⟩⟩
      fun a l b hI hstep => ⟨System.sound_step hI.1 hstep.step, hI.2.step hI.1 hids hgeo hstep⟩
  rcases hI.2 with ⟨-, hfree⟩ | ⟨-, d₁, hd₁, hfirst, hrest⟩
  · obtain ⟨d, hd⟩ := List.exists_mem_of_ne_nil ds hne
    obtain ⟨l, hl, a, hret⟩ := hdone d hd
    obtain ⟨p, hp, -⟩ := returned_eq_receipt hs h hgeo hd hl hret
    rw [hfree d hd] at hp
    cases hp
  · refine ⟨d₁, hd₁, fun l hl a hret => ?_, fun d hd hne l hl a hret => ?_⟩
    · obtain ⟨p, hp, hpa⟩ := returned_eq_receipt hs h hgeo hd₁ hl hret
      obtain rfl : encodeActions [.stepUpAuth] = p := Option.some.inj (hfirst.symm.trans hp)
      exact Option.some.inj (hpa.symm.trans (decodeActions_encodeActions _))
    · obtain ⟨p, hp, hpa⟩ := returned_eq_receipt hs h hgeo hd hl hret
      rcases hrest d hd hne with hnone | hsome
      · rw [hnone] at hp
        cases hp
      · obtain rfl : encodeActions [.stepUpAuth, .quarantine] = p := Option.some.inj (hsome.symm.trans hp)
        exact Option.some.inj (hpa.symm.trans (decodeActions_encodeActions _))

end Escalation

/-- Containment is linearizable: every concurrent run leaves the keyspace and gives the replies of its
calls and overrides performed one at a time at their linearization points. And of several new geo
anomalies of one user contained at once, exactly one gets the step-up and the others are escalated. -/
theorem containment_linearizable (cfg : RedisConfig) :
    (∀ s ls t, s.Quiet → Run (ContainStep cfg) s ls t →
      replay (perform cfg) s.server ((ls.filterMap Label.point).map Prod.fst)
        = ((ls.filterMap Label.point).map Prod.snd, t.server)) ∧
      ∀ u ds s ls t, s.Quiet → ds ≠ [] → (ds.map (·.detectionId)).Nodup → (∀ d ∈ ds, GeoOf u d) →
        s.db (stepUpKey u) = none → (∀ d ∈ ds, receipt s.db d.detectionId = none) →
        Run (CalmStep cfg u ds) s ls t → (∀ d ∈ ds, ∃ l ∈ ls, ∃ a, l.returned = some (d, a)) →
        Escalates ds ls :=
  ⟨fun _ _ _ => run_linear, fun _ _ _ _ _ => escalates_run⟩

namespace Sample

/-- A geo anomaly of `u1`. -/
def geo (detectionId : String) : DetectionEvent :=
  { burst with detectionId := detectionId, detectionType := "geo_velocity_anomaly" }

/-- Two of them. -/
def anomalies : List DetectionEvent := [geo "d1", geo "d2"]

/-- A step of a call for one of the two is calm. -/
theorem calmStep {s t : System} {l : Label} {d : DetectionEvent} (h : ContainStep {} s l t)
    (hl : l.detection = some d) (hd : d ∈ anomalies) : CalmStep {} "u1" anomalies s l t where
  step := h
  calls d' hd' _ := by
    obtain rfl : d = d' := Option.some.inj (hl.symm.trans hd')
    exact hd
  stepUp hnone := by simp [hl] at hnone
  receipts _ _ hnone := by simp [hl] at hnone

theorem geo1_mem : geo "d1" ∈ anomalies := List.mem_cons_self

theorem geo2_mem : geo "d2" ∈ anomalies := List.mem_cons_of_mem _ List.mem_cons_self

/-- Both plan a step-up; the second one's transaction fails, and it plans again. -/
def race : List Label :=
  [.start (geo "d1"), .internal (geo "d1"), .internal (geo "d1"), .internal (geo "d1"),
    .start (geo "d2"), .internal (geo "d2"), .internal (geo "d2"), .internal (geo "d2"),
    .exec (geo "d1") [.stepUpAuth] true, .internal (geo "d2"), .internal (geo "d2"),
    .internal (geo "d2"), .internal (geo "d2"), .exec (geo "d2") [.stepUpAuth, .quarantine] true]

theorem race_run : ∃ t, Run (CalmStep {} "u1" anomalies) idle race t :=
  ⟨_, .cons (calmStep (.start 0 (geo "d1") rfl) rfl geo1_mem)
    (.cons (calmStep (.watch 0 (geo "d1") rfl) rfl geo1_mem)
    (.cons (calmStep (.miss 0 (geo "d1") (watchOf (geo "d1")) rfl rfl (by decide)) rfl geo1_mem)
    (.cons (calmStep (.plan 0 (geo "d1") (watchOf (geo "d1")) rfl) rfl geo1_mem)
    (.cons (calmStep (.start 1 (geo "d2") rfl) rfl geo2_mem)
    (.cons (calmStep (.watch 1 (geo "d2") rfl) rfl geo2_mem)
    (.cons (calmStep (.miss 1 (geo "d2") (watchOf (geo "d2")) rfl rfl (by decide)) rfl geo2_mem)
    (.cons (calmStep (.plan 1 (geo "d2") (watchOf (geo "d2")) rfl) rfl geo2_mem)
    (.cons (calmStep (.exec 0 (geo "d1") (watchOf (geo "d1")) (plan {} (geo "d1") false) true rfl rfl)
      rfl geo1_mem)
    (.cons (calmStep (.conflict 1 (geo "d2") ⟨(watchOf (geo "d2")).keys, true⟩ (plan {} (geo "d2") false)
      rfl rfl) rfl geo2_mem)
    (.cons (calmStep (.watch 1 (geo "d2") rfl) rfl geo2_mem)
    (.cons (calmStep (.miss 1 (geo "d2") (watchOf (geo "d2")) rfl rfl (by decide)) rfl geo2_mem)
    (.cons (calmStep (.plan 1 (geo "d2") (watchOf (geo "d2")) rfl) rfl geo2_mem)
    (.single (calmStep (.exec 1 (geo "d2") (watchOf (geo "d2")) (plan {} (geo "d2") true) true rfl rfl)
      rfl geo2_mem))))))))))))))⟩

/-- `d1` was contained earlier: its receipt is there, and the step-up has been cleared since. -/
def contained : System :=
  { idle with
    db := fun k => if k = receiptKey "d1" then some ⟨.str (encodeActions [.stepUpAuth]), none⟩ else none }

/-- `d1` is delivered again, and `d2` for the first time. -/
def secondStepUp : List Label :=
  [.start (geo "d1"), .internal (geo "d1"), .hit (geo "d1") [.stepUpAuth], .start (geo "d2"),
    .internal (geo "d2"), .internal (geo "d2"), .internal (geo "d2"), .exec (geo "d2") [.stepUpAuth] true]

theorem secondStepUp_run : ∃ t, Run (CalmStep {} "u1" anomalies) contained secondStepUp t :=
  ⟨_, .cons (calmStep (.start 0 (geo "d1") rfl) rfl geo1_mem)
    (.cons (calmStep (.watch 0 (geo "d1") rfl) rfl geo1_mem)
    (.cons (calmStep (.hit 0 (geo "d1") (watchOf (geo "d1")) (encodeActions [.stepUpAuth]) [.stepUpAuth]
      rfl rfl rfl) rfl geo1_mem)
    (.cons (calmStep (.start 1 (geo "d2") rfl) rfl geo2_mem)
    (.cons (calmStep (.watch 1 (geo "d2") rfl) rfl geo2_mem)
    (.cons (calmStep (.miss 1 (geo "d2") (watchOf (geo "d2")) rfl rfl (by decide)) rfl geo2_mem)
    (.cons (calmStep (.plan 1 (geo "d2") (watchOf (geo "d2")) rfl) rfl geo2_mem)
    (.single (calmStep (.exec 1 (geo "d2") (watchOf (geo "d2")) (plan {} (geo "d2") false) true rfl rfl)
      rfl geo2_mem))))))))⟩

theorem anomalies_nodup : (anomalies.map (·.detectionId)).Nodup := by decide

theorem anomalies_geo : ∀ d ∈ anomalies, GeoOf "u1" d := by
  simp [anomalies, GeoOf, geo, burst]

end Sample

/-- Two racing anomalies. -/
theorem containment_linearizable_race :
    (∃ t, Run (CalmStep {} "u1" Sample.anomalies) Sample.idle Sample.race t) ∧
      Escalates Sample.anomalies Sample.race := by
  obtain ⟨t, h⟩ := Sample.race_run
  refine ⟨⟨t, h⟩, (containment_linearizable {}).2 "u1" Sample.anomalies Sample.idle Sample.race t
    (fun _ => rfl) (by simp [Sample.anomalies]) Sample.anomalies_nodup Sample.anomalies_geo rfl
    (fun _ _ => rfl) h ?_⟩
  simp [Sample.anomalies, Sample.race, Label.returned]

/-- An anomaly that was contained before the run answers from its receipt: two anomalies return a
step-up alone although none was pending at the start. -/
theorem two_stepUps_after_clear :
    Sample.contained.Quiet ∧ Sample.contained.db (stepUpKey "u1") = none ∧
      (Sample.anomalies.map (·.detectionId)).Nodup ∧ (∀ d ∈ Sample.anomalies, GeoOf "u1" d) ∧
      (∃ t, Run (CalmStep {} "u1" Sample.anomalies) Sample.contained Sample.secondStepUp t) ∧
      (∀ d ∈ Sample.anomalies, ∃ l ∈ Sample.secondStepUp, ∃ a, l.returned = some (d, a)) ∧
      ¬ Escalates Sample.anomalies Sample.secondStepUp := by
  refine ⟨fun _ => rfl, by decide, Sample.anomalies_nodup, Sample.anomalies_geo, Sample.secondStepUp_run,
    by simp [Sample.anomalies, Sample.secondStepUp, Label.returned], ?_⟩
  rintro ⟨d₁, -, -, hrest⟩
  have h₁ : d₁ = Sample.geo "d1" := by
    by_contra hne
    have := hrest _ Sample.geo1_mem (Ne.symm hne) (.hit (Sample.geo "d1") [.stepUpAuth])
      (by simp [Sample.secondStepUp]) _ rfl
    simp at this
  have h₂ : d₁ = Sample.geo "d2" := by
    by_contra hne
    have := hrest _ Sample.geo2_mem (Ne.symm hne) (.exec (Sample.geo "d2") [.stepUpAuth] true)
      (by simp [Sample.secondStepUp]) _ rfl
    simp at this
  have : "d1" = "d2" := congrArg DetectionEvent.detectionId (h₁.symm.trans h₂)
  simp at this

end Rtace.Containment
