import Mathlib.Order.WithBot
import Rtace.Containment.AtMostOnce
import Rtace.Containment.Suppressed

/-!
# Lifetimes of rules

Containment and the API write the same rules, each with a lifetime of its own, and every write replaces the
rule that is there. So a call never removes a rule, and it never shortens one that it does not write; what it
writes lives as long as the configuration says.
-/

namespace Rtace

/-- When a key is gone, `⊤` if it has no deadline. -/
def Entry.until (e : Entry) : WithTop ℕ := e.expireAt.elim ⊤ fun t => (t : WithTop ℕ)

end Rtace

namespace Rtace.Containment

open Lib Redis

/-- A call for `d` writes the rule `k` for `ttl` seconds. -/
def Writes (cfg : RedisConfig) (db : Db) (d : DetectionEvent) (k : String) (ttl : ℕ) : Prop :=
  ¬ Applied db d ∧ (k, ttl) ∈ (plan cfg d (db (stepUpKey d.userId)).isSome).2

/-- Every live rule is still live, as it was or, if the call writes it, with the lifetime of its kind. -/
def Renewed (cfg : RedisConfig) (now : ℕ) (d : DetectionEvent) (db db' : Db) : Prop :=
  ∀ k ∈ ruleKeys, ∀ e, db k = some e → ∃ e', db' k = some e' ∧
    ((∀ ttl, ¬ Writes cfg db d k ttl) ∧ e' = e ∨ ∃ ttl, Writes cfg db d k ttl ∧ e'.expireAt = deadline now ttl)

/-- Every live rule is still live, and lasts at least as long. -/
def Unweakened (db db' : Db) : Prop :=
  ∀ k ∈ ruleKeys, ∀ e, db k = some e → ∃ e', db' k = some e' ∧ e.until ≤ e'.until

section

variable {cfg : RedisConfig} {now : ℕ} {d : DetectionEvent} {db : Db} {k : String}

theorem quarantineKey_ne_ipBlockKey (u ip : String) : quarantineKey u ≠ ipBlockKey ip :=
  append_ne_of_incomparable (by decide) _ _

theorem stepUpKey_ne_quarantineKey (u u' : String) : stepUpKey u ≠ quarantineKey u' :=
  append_ne_of_incomparable (by decide) _ _

/-- A plan writes no rule twice. -/
theorem plan_nodup (cfg : RedisConfig) (d : DetectionEvent) (pending : Bool) :
    ((plan cfg d pending).2.map Prod.fst).Nodup := by
  unfold plan
  split
  · simp
  · split
    · split
      · simp [quarantineKey_ne_ipBlockKey]
      · simp
    · split
      · cases pending with
        | true => simp [stepUpKey_ne_quarantineKey]
        | false => simp
      · simp

/-- So the lifetime of what it writes is determined. -/
theorem Writes.unique {ttl ttl' : ℕ} (h : Writes cfg db d k ttl) (h' : Writes cfg db d k ttl') : ttl = ttl' :=
  congrArg Prod.snd (List.inj_on_of_nodup_map (plan_nodup cfg d _) h.2 h'.2 rfl)

/-- What a call does to a rule. -/
theorem applyContainment_rule (cfg : RedisConfig) (now : ℕ) (d : DetectionEvent) (db : Db) (hk : k ∈ ruleKeys) :
    (∀ ttl, ¬ Writes cfg db d k ttl) ∧ (applyContainment cfg now d db).2 k = db k ∨
      ∃ ttl, Writes cfg db d k ttl ∧
        (applyContainment cfg now d db).2 k = some ⟨.str (.text d.detectionId), deadline now ttl⟩ := by
  cases hp : payload (db (receiptKey d.detectionId)) with
  | some p =>
      have happlied : Applied db d := by
        rw [Applied, hp]
        rfl
      refine Or.inl ⟨fun ttl h => h.1 happlied, ?_⟩
      rw [applyContainment_of_receipt hp]
  | none =>
      have hnew : ¬ Applied db d := by
        rw [Applied, hp]
        simp
      by_cases hknown : Known d.detectionType
      · rw [applyContainment_of_known hp ((plan_ne_nil_iff cfg d _).mpr hknown)]
        by_cases hmem : k ∈ (plan cfg d (db (stepUpKey d.userId)).isSome).2.map Prod.fst
        · obtain ⟨ttl, hplan, hentry⟩ := writeAll_entry cfg now d _ db hmem
          exact Or.inr ⟨ttl, ⟨hnew, hplan⟩, hentry⟩
        · refine Or.inl ⟨fun ttl h => hmem (List.mem_map.mpr ⟨_, h.2, rfl⟩), writeAll_frame cfg now d _ db ?_⟩
          simp only [writtenKeys, decide_eq_false_iff_not, not_or]
          exact ⟨fun h => receiptKey_notMem_ruleKeys d.detectionId (h ▸ hk), hmem⟩
      · refine Or.inl ⟨fun ttl h => ?_, ?_⟩
        · have hmem := h.2
          rw [plan_unknown hknown] at hmem
          cases hmem
        · rw [applyContainment_of_unknown hp hknown]

theorem renewed_applyContainment (cfg : RedisConfig) (now : ℕ) (d : DetectionEvent) (db : Db) :
    Renewed cfg now d db (applyContainment cfg now d db).2 := by
  intro k hk e he
  rcases applyContainment_rule cfg now d db hk with ⟨hfree, hkept⟩ | ⟨ttl, hwrites, hentry⟩
  · exact ⟨e, by rw [hkept, he], Or.inl ⟨hfree, rfl⟩⟩
  · exact ⟨_, hentry, Or.inr ⟨ttl, hwrites, rfl⟩⟩

/-- A renewal weakens nothing exactly if no rule it writes had longer to live. -/
theorem Renewed.unweakened_iff {db' : Db} (h : Renewed cfg now d db db') :
    Unweakened db db' ↔
      ∀ k ttl, Writes cfg db d k ttl → ∀ e, db k = some e → e.until ≤ (now + 1000 * ttl : ℕ) := by
  constructor
  · intro hkept k ttl hwrites e he
    have hk : k ∈ ruleKeys := plan_ruleKeys (List.mem_map.mpr ⟨_, hwrites.2, rfl⟩)
    obtain ⟨e', he', hle⟩ := hkept k hk e he
    obtain ⟨e'', he'', ⟨hfree, -⟩ | ⟨ttl', hwrites', hdeadline⟩⟩ := h k hk e he
    · exact absurd hwrites (hfree ttl)
    · obtain rfl := Option.some.inj (he'.symm.trans he'')
      obtain rfl := hwrites.unique hwrites'
      rw [Entry.until, Entry.until, hdeadline] at hle
      exact hle
  · intro hshort k hk e he
    obtain ⟨e', he', ⟨-, rfl⟩ | ⟨ttl, hwrites, hdeadline⟩⟩ := h k hk e he
    · exact ⟨e', he', le_rfl⟩
    · refine ⟨e', he', ?_⟩
      have hle := hshort k ttl hwrites e he
      rw [Entry.until, Entry.until, hdeadline]
      exact hle

end

/-- After a call every live rule is still live. One that the call does not write is as it was; one that it
writes lives for the configured time from now on. So nothing is weakened exactly if no rule that is written had
longer to live. -/
theorem containment_lifetimes (cfg : RedisConfig) (now : ℕ) (d : DetectionEvent) (db : Db) :
    Renewed cfg now d db (applyContainment cfg now d db).2 ∧
      (Unweakened db (applyContainment cfg now d db).2 ↔
        ∀ k ttl, Writes cfg db d k ttl → ∀ e, db k = some e → e.until ≤ (now + 1000 * ttl : ℕ)) :=
  ⟨renewed_applyContainment cfg now d db, (renewed_applyContainment cfg now d db).unweakened_iff⟩

/-- Between other calls, overrides and expiry a step of a call leaves the keyspace alone, or is the whole call. -/
theorem run_renewed {cfg : RedisConfig} {s t u : System} {ls : List Label} {l : Label} {d : DetectionEvent}
    (hs : s.Quiet) (hrun : Run (ContainStep cfg) s ls t) (hstep : ContainStep cfg t l u) (hd : l.detection = some d) :
    u.db = t.db ∨ Renewed cfg t.now d t.db u.db := by
  have hsound : t.Sound cfg := hrun.invariant (hs.sound cfg) fun _ _ _ => System.sound_step
  cases l with
  | hit d' actions | ignored d' | start d' | internal d' => exact Or.inl (db_eq_of_reads hstep nofun (by rw [hd]; simp))
  | exec d' actions returned =>
      obtain rfl : d' = d := Option.some.inj hd
      have hcall := congrArg (fun x => x.2.db) (perform_point hsound hstep rfl)
      refine Or.inr ?_
      rw [show u.db = (applyContainment cfg t.now d' t.db).2 from hcall.symm]
      exact renewed_applyContainment cfg t.now d' t.db
  | override | tick | crash => cases hd

namespace Sample

/-- The fraud desk quarantines a user for a week. -/
def quarantinedForAWeek : Db := ((Override.addQuarantine "u1" 604800 "fraud-desk").run 0 fun _ => none).2

end Sample

/-- A burst a minute later cuts the week down to an hour. -/
theorem detection_shortens_quarantine :
    (Sample.quarantinedForAWeek (quarantineKey "u1")).bind Entry.expireAt = some 604800000 ∧
      ((applyContainment {} 60000 Sample.burst Sample.quarantinedForAWeek).2 (quarantineKey "u1")).bind Entry.expireAt
        = some 3660000 ∧
      ¬ Unweakened Sample.quarantinedForAWeek (applyContainment {} 60000 Sample.burst Sample.quarantinedForAWeek).2 := by
  refine ⟨by decide, by decide, fun h => ?_⟩
  rw [(renewed_applyContainment _ _ _ _).unweakened_iff] at h
  have hwrites : Writes {} Sample.quarantinedForAWeek Sample.burst (quarantineKey "u1") 3600 :=
    ⟨by decide, by decide⟩
  have hlong := h _ _ hwrites ⟨.str (.text "api:fraud-desk"), some 604800000⟩ rfl
  exact absurd (WithTop.coe_le_coe.mp hlong) (by decide)

end Rtace.Containment
