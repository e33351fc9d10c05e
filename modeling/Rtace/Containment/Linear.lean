import Rtace.Containment.Actions

/-!
# Linearization of containment

The watch of a call covers every key its plan depends on, the receipt and the step-up of the user. So at
the moment its `EXEC` succeeds the call has seen the keyspace as it is, and it acts as
`applyContainment` run at that moment. `Client.Sound` is what a client knows while it is clean.
-/

namespace Rtace.Containment

open Lib Redis

/-! ## What the commands write -/

@[simp] theorem decodeAction_text (a : ActionKind) : decodeAction (.str a.text) = some a := by
  cases a <;> rfl

/-- A receipt reads back as the actions it was written for. -/
theorem decodeActions_encodeActions (actions : List ActionKind) :
    decodeActions (encodeActions actions) = some actions := by
  simp only [decodeActions, encodeActions]
  induction actions with
  | nil => rfl
  | cons a as ih => simp [ih]

/-- The detection types that containment knows. -/
def Known (detectionType : String) : Prop :=
  detectionType ∈ ["replay_attack", "fraud_burst", "credential_stuffing", "geo_velocity_anomaly"]

/-- Exactly the known types have actions, whatever is pending. -/
theorem plan_ne_nil_iff (cfg : RedisConfig) (d : DetectionEvent) (pending : Bool) :
    (plan cfg d pending).1 ≠ [] ↔ Known d.detectionType := by
  unfold plan Known
  split
  · rename_i h
    rcases h with h | h <;> simp [h]
  · split
    · rename_i h
      split <;> simp [h]
    · split
      · rename_i h
        cases pending <;> simp [h]
      · simp_all

/-- A plan writes quarantines, step-ups and IP blocks. -/
theorem plan_ruleKeys {cfg : RedisConfig} {d : DetectionEvent} {pending : Bool} {k : String}
    (hk : k ∈ (plan cfg d pending).2.map Prod.fst) :
    k ∈ keyFamilies [quarantineKeyPrefix, stepUpKeyPrefix, ipBlockKeyPrefix] := by
  have hq : quarantineKey d.userId ∈ keyFamilies [quarantineKeyPrefix, stepUpKeyPrefix, ipBlockKeyPrefix] :=
    mem_keyFamilies (by simp) _
  have hs : stepUpKey d.userId ∈ keyFamilies [quarantineKeyPrefix, stepUpKeyPrefix, ipBlockKeyPrefix] :=
    mem_keyFamilies (by simp) _
  unfold plan at hk
  split at hk
  · simp_all
  · split at hk
    · split at hk
      · simp only [List.map_cons, List.map_nil, List.mem_cons, List.not_mem_nil, or_false] at hk
        rcases hk with rfl | rfl
        · exact hq
        · exact mem_keyFamilies (by simp) _
      · simp_all
    · split at hk
      · cases pending
        · simp_all
        · simp only [if_true, List.map_cons, List.map_nil, List.mem_cons, List.not_mem_nil,
            or_false] at hk
          rcases hk with rfl | rfl
          · exact hs
          · exact hq
      · simp at hk

/-- Rule keys are never receipts. -/
theorem receiptKey_notMem_plan (cfg : RedisConfig) (d : DetectionEvent) (pending : Bool) (i : String) :
    receiptKey i ∉ (plan cfg d pending).2.map Prod.fst := by
  intro hk
  have hr : receiptKey i ∈ keyFamilies [receiptKeyPrefix] := mem_keyFamilies (by simp) _
  exact Set.disjoint_left.mp (keyFamilies_disjoint (by decide)) (plan_ruleKeys hk) hr

theorem setEx_apply (now : ℕ) (k : String) (v : Payload) (ttl : ℕ) (db : Db) :
    (setEx now k v ttl db).2 = Function.update db k (some ⟨.str v, deadline now ttl⟩) := rfl

/-- The rule writes touch no other key. -/
private theorem runAll_setEx_frame (now : ℕ) (v : Payload) (ws : List (String × ℕ)) (db : Db) {k : String}
    (hk : k ∉ ws.map Prod.fst) : (runAll (ws.map fun w => setEx now w.1 v w.2) db).2 k = db k := by
  induction ws generalizing db with
  | nil => rfl
  | cons w ws ih =>
      simp only [List.map_cons, List.mem_cons, not_or] at hk
      rw [List.map_cons, runAll_cons, ih _ hk.2, setEx_apply, Function.update_of_ne hk.1]

/-- Every rule of the writes is there afterwards, as one of them wrote it. -/
private theorem runAll_setEx_entry (now : ℕ) (v : Payload) (ws : List (String × ℕ)) (db : Db) {k : String}
    (hk : k ∈ ws.map Prod.fst) : ∃ ttl, (k, ttl) ∈ ws ∧
      (runAll (ws.map fun w => setEx now w.1 v w.2) db).2 k = some ⟨.str v, deadline now ttl⟩ := by
  induction ws generalizing db with
  | nil => simp at hk
  | cons w ws ih =>
      rw [List.map_cons, runAll_cons]
      by_cases hlater : k ∈ ws.map Prod.fst
      · obtain ⟨ttl, hmem, hentry⟩ := ih (setEx now w.1 v w.2 db).2 hlater
        exact ⟨ttl, List.mem_cons_of_mem _ hmem, hentry⟩
      · obtain rfl : k = w.1 := by
          rw [List.map_cons, List.mem_cons] at hk
          exact hk.resolve_right hlater
        refine ⟨w.2, List.mem_cons_self, ?_⟩
        rw [runAll_setEx_frame _ _ _ _ hlater, setEx_apply, Function.update_self]

/-- The transaction touches the receipt and the rules of its plan only. -/
theorem writeAll_frame (cfg : RedisConfig) (now : ℕ) (d : DetectionEvent)
    (p : List ActionKind × List (String × ℕ)) (db : Db) {k : String} (hk : writtenKeys d p k = false) :
    (writeAll cfg now d p db).2 k = db k := by
  simp only [writtenKeys, decide_eq_false_iff_not, not_or] at hk
  simp only [writeAll, bind_apply, pure_apply]
  rw [runAll_setEx_frame _ _ _ _ hk.2, setEx_apply, Function.update_of_ne hk.1]

/-- The transaction leaves the receipt of its detection, with its own deadline. -/
theorem writeAll_receiptEntry (cfg : RedisConfig) (now : ℕ) (d : DetectionEvent)
    (p : List ActionKind × List (String × ℕ)) (db : Db) (hp : receiptKey d.detectionId ∉ p.2.map Prod.fst) :
    (writeAll cfg now d p db).2 (receiptKey d.detectionId) =
      some ⟨.str (encodeActions p.1), deadline now cfg.containmentReceiptTtlSeconds⟩ := by
  simp only [writeAll, bind_apply, pure_apply]
  rw [runAll_setEx_frame _ _ _ _ hp, setEx_apply, Function.update_self]

theorem writeAll_receipt (cfg : RedisConfig) (now : ℕ) (d : DetectionEvent)
    (p : List ActionKind × List (String × ℕ)) (db : Db) (hp : receiptKey d.detectionId ∉ p.2.map Prod.fst) :
    payload ((writeAll cfg now d p db).2 (receiptKey d.detectionId)) = some (encodeActions p.1) := by
  rw [writeAll_receiptEntry cfg now d p db hp, payload_str]

/-- The transaction leaves the rules of its plan under the id of the detection. -/
theorem writeAll_entry (cfg : RedisConfig) (now : ℕ) (d : DetectionEvent)
    (p : List ActionKind × List (String × ℕ)) (db : Db) {k : String} (hk : k ∈ p.2.map Prod.fst) :
    ∃ ttl, (k, ttl) ∈ p.2 ∧
      (writeAll cfg now d p db).2 k = some ⟨.str (.text d.detectionId), deadline now ttl⟩ := by
  simp only [writeAll, bind_apply, pure_apply]
  exact runAll_setEx_entry _ _ _ _ hk

theorem writeAll_rule (cfg : RedisConfig) (now : ℕ) (d : DetectionEvent)
    (p : List ActionKind × List (String × ℕ)) (db : Db) {k : String} (hk : k ∈ p.2.map Prod.fst) :
    (writeAll cfg now d p db).2 k ≠ none := by
  obtain ⟨ttl, -, hentry⟩ := writeAll_entry cfg now d p db hk
  rw [hentry]
  exact Option.some_ne_none _

/-- An override touches no key but its own. -/
theorem Override.run_frame (op : Override) (now : ℕ) (db : Db) {k : String} (hk : op.touched db k = false) :
    (op.run now db).2 k = db k := by
  have hdel : ∀ j : String, ((k == j) && (db k).isSome) = false → (del j db).2 k = db k := by
    intro j hj
    rcases eq_or_ne k j with rfl | hne
    · have hnone : db k = none := by simpa using hj
      simp [del, atKey, hnone]
    · exact Function.update_of_ne hne _ _
  cases op with
  | addQuarantine u ttl reason =>
      simp only [touched, key, Bool.and_true, beq_eq_false_iff_ne] at hk
      exact Function.update_of_ne hk _ _
  | addIpBlock ip ttl reason =>
      simp only [touched, key, Bool.and_true, beq_eq_false_iff_ne] at hk
      exact Function.update_of_ne hk _ _
  | liftQuarantine u => exact hdel _ hk
  | clearStepUp u => exact hdel _ hk
  | liftIpBlock ip => exact hdel _ hk

/-- A key that expiry does not touch is as it was. -/
theorem purge_frame (now : ℕ) (db : Db) {k : String}
    (hk : ((db k).isSome && (purge now db k).isNone) = false) : purge now db k = db k := by
  rcases purge_cases now db k with heq | hgone
  · exact heq
  · rw [hgone, Option.isNone_none, Bool.and_true, Option.isSome_eq_false_iff, Option.isNone_iff_eq_none] at hk
    rw [hgone, hk]

/-! ## What a clean client knows -/

/-- What a clean client has learnt from the keys it watches. -/
def Client.Sound (cfg : RedisConfig) (db : Db) : Client → Prop
  | .idle | .ready _ => True
  | .watching d w => w.keys = (watchOf d).keys
  | .missed d w => w.keys = (watchOf d).keys ∧ Known d.detectionType ∧
      (w.dirty = false → payload (db (receiptKey d.detectionId)) = none)
  | .planned d w p => w.keys = (watchOf d).keys ∧ (∃ pending, p = plan cfg d pending) ∧ p.1 ≠ [] ∧
      (w.dirty = false → payload (db (receiptKey d.detectionId)) = none ∧
        p = plan cfg d (db (stepUpKey d.userId)).isSome)

/-- Every client is sound. -/
def System.Sound (cfg : RedisConfig) (s : System) : Prop := ∀ c, (s.clients c).Sound cfg s.db

/-- A write leaves sound clients sound: it spoils their watch or leaves what they know alone. -/
theorem Client.sound_touch {cfg : RedisConfig} {x : Client} {db db' : Db} {touched : String → Bool}
    (hframe : ∀ k, touched k = false → db' k = db k) (hx : x.Sound cfg db) :
    (x.touch touched).Sound cfg db' := by
  cases x with
  | idle => trivial
  | ready d => trivial
  | watching d w => exact hx
  | missed d w =>
      obtain ⟨hkeys, hknown, hclean⟩ := hx
      refine ⟨hkeys, hknown,
        Watch.preserve (P := fun db : Db => payload (db (receiptKey d.detectionId)) = none) ?_ hframe hclean⟩
      intro db₁ db₂ heq hnone
      rw [← heq _ (by rw [hkeys]; simp [watchOf])]
      exact hnone
  | planned d w p =>
      obtain ⟨hkeys, hplan, hne, hclean⟩ := hx
      refine ⟨hkeys, hplan, hne,
        Watch.preserve (P := fun db : Db => payload (db (receiptKey d.detectionId)) = none ∧
          p = Containment.plan cfg d (db (stepUpKey d.userId)).isSome) ?_ hframe hclean⟩
      intro db₁ db₂ heq hboth
      rw [← heq _ (by rw [hkeys]; simp [watchOf]), ← heq (stepUpKey d.userId) (by rw [hkeys]; simp [watchOf])]
      exact hboth

namespace System

variable {cfg : RedisConfig} {s t : System} {l : Label}

theorem sound_goto (hs : s.Sound cfg) {c : ℕ} {x : Client} (hx : x.Sound cfg s.db) :
    (s.goto c x).Sound cfg :=
  (Function.forall_update_iff s.clients fun _ x => x.Sound cfg s.db).mpr ⟨hx, fun c' _ => hs c'⟩

theorem sound_write (hs : s.Sound cfg) {db : Db} {touched : String → Bool}
    (hframe : ∀ k, touched k = false → db k = s.db k) : (s.write db touched).Sound cfg :=
  fun c => Client.sound_touch hframe (hs c)

/-- Every step keeps the clients sound. -/
theorem sound_step (hs : s.Sound cfg) (h : ContainStep cfg s l t) : t.Sound cfg := by
  cases h with
  | start c d hc => exact sound_goto hs trivial
  | watch c d hc => exact sound_goto hs rfl
  | hit c d w p actions hc hp ha => exact sound_goto hs trivial
  | unreadable c d w p hc hp ha => exact sound_goto hs trivial
  | ignored c d w hc hp hd => exact sound_goto hs trivial
  | miss c d w hc hp hd =>
      have hw : (Client.watching d w).Sound cfg s.db := hc ▸ hs c
      exact sound_goto hs ⟨hw, (plan_ne_nil_iff cfg d false).mp hd, fun _ => hp⟩
  | plan c d w hc =>
      have hm : (Client.missed d w).Sound cfg s.db := hc ▸ hs c
      obtain ⟨hkeys, hknown, hclean⟩ := hm
      refine sound_goto hs ⟨hkeys, ⟨_, rfl⟩, ?_, fun hw => ⟨hclean hw, rfl⟩⟩
      exact (plan_ne_nil_iff cfg d _).mpr hknown
  | exec c d w p returned hc hw =>
      exact sound_goto (sound_write hs fun k hk => writeAll_frame cfg s.now d p s.db hk) trivial
  | conflict c d w p hc hw => exact sound_goto hs trivial
  | crash c => exact sound_goto hs trivial
  | override op => exact sound_write hs fun k hk => op.run_frame s.now s.db hk
  | tick now h => exact sound_write hs fun k hk => purge_frame now s.db hk

end System

/-! ## The sequential system -/

/-- An operation that runs undisturbed. -/
inductive Event where
  | call (d : DetectionEvent)
  | override (op : Override)
  | tick (now : ℕ)

/-- What the calls and overrides meet: server time and keyspace. -/
structure Server where
  now : ℕ
  db : Db

/-- Perform an operation; a call replies with its actions. -/
def perform (cfg : RedisConfig) (s : Server) : Event → Option (List ActionKind) × Server
  | .call d => ((applyContainment cfg s.now d s.db).1, ⟨s.now, (applyContainment cfg s.now d s.db).2⟩)
  | .override op => (none, ⟨s.now, (op.run s.now s.db).2⟩)
  | .tick now => (none, ⟨now, purge now s.db⟩)

/-- The server of a system. -/
def System.server (s : System) : Server := ⟨s.now, s.db⟩

/-- The linearization point of a step, with its reply. The call of an unknown type without a receipt
takes effect at the `GET` that found none. -/
def Label.point : Label → Option (Event × Option (List ActionKind))
  | .hit d actions => some (.call d, some actions)
  | .ignored d => some (.call d, some [])
  | .exec d actions _ => some (.call d, some actions)
  | .override op => some (.override op, none)
  | .tick now => some (.tick now, none)
  | .start _ | .internal _ | .crash => none

theorem applyContainment_of_receipt {cfg : RedisConfig} {now : ℕ} {d : DetectionEvent} {db : Db} {p : Payload}
    (hp : payload (db (receiptKey d.detectionId)) = some p) :
    applyContainment cfg now d db = (decodeActions p, db) := by
  simp only [applyContainment, bind_apply, get_apply, hp, pure_apply]

theorem applyContainment_of_unknown {cfg : RedisConfig} {now : ℕ} {d : DetectionEvent} {db : Db}
    (hp : payload (db (receiptKey d.detectionId)) = none) (hd : ¬ Known d.detectionType) :
    applyContainment cfg now d db = (some [], db) := by
  have hnil : (plan cfg d (db (stepUpKey d.userId)).isSome).1 = [] :=
    not_not.mp fun hne => hd ((plan_ne_nil_iff cfg d _).mp hne)
  simp only [applyContainment, bind_apply, get_apply, hp, existsKey_apply, hnil, List.isEmpty_nil,
    if_true, pure_apply]

theorem applyContainment_of_known {cfg : RedisConfig} {now : ℕ} {d : DetectionEvent} {db : Db}
    (hp : payload (db (receiptKey d.detectionId)) = none)
    (hd : (plan cfg d (db (stepUpKey d.userId)).isSome).1 ≠ []) :
    applyContainment cfg now d db
      = (some (plan cfg d (db (stepUpKey d.userId)).isSome).1,
          (writeAll cfg now d (plan cfg d (db (stepUpKey d.userId)).isSome) db).2) := by
  have hne : (plan cfg d (db (stepUpKey d.userId)).isSome).1.isEmpty = false := by
    simpa using hd
  simp only [applyContainment, bind_apply, get_apply, hp, existsKey_apply, hne, Bool.false_eq_true,
    if_false, pure_apply]

/-- A step at a linearization point acts as its operation. -/
theorem perform_point {cfg : RedisConfig} {s t : System} {l : Label} {e : Event}
    {r : Option (List ActionKind)} (hs : s.Sound cfg) (h : ContainStep cfg s l t)
    (hl : l.point = some (e, r)) : perform cfg s.server e = (r, t.server) := by
  cases h with
  | start | watch | unreadable | miss | plan | conflict | crash => simp [Label.point] at hl
  | hit c d w p actions hc hp ha =>
      obtain ⟨rfl, rfl⟩ := by simpa only [Label.point, Option.some.injEq, Prod.mk.injEq] using hl
      simp only [perform, System.server, System.goto, applyContainment_of_receipt hp, ha]
  | ignored c d w hc hp hd =>
      obtain ⟨rfl, rfl⟩ := by simpa only [Label.point, Option.some.injEq, Prod.mk.injEq] using hl
      have hunknown : ¬ Known d.detectionType := fun hk => (plan_ne_nil_iff cfg d false).mpr hk hd
      simp only [perform, System.server, System.goto, applyContainment_of_unknown hp hunknown]
  | exec c d w p returned hc hw =>
      obtain ⟨rfl, rfl⟩ := by simpa only [Label.point, Option.some.injEq, Prod.mk.injEq] using hl
      have hsound : (Client.planned d w p).Sound cfg s.db := hc ▸ hs c
      obtain ⟨-, -, hne, hclean⟩ := hsound
      obtain ⟨hp, rfl⟩ := hclean hw
      simp only [perform, System.server, System.goto, System.write, applyContainment_of_known hp hne]
  | override op =>
      obtain ⟨rfl, rfl⟩ := by simpa only [Label.point, Option.some.injEq, Prod.mk.injEq] using hl
      rfl
  | tick now h =>
      obtain ⟨rfl, rfl⟩ := by simpa only [Label.point, Option.some.injEq, Prod.mk.injEq] using hl
      rfl

/-- A step without one leaves time and keyspace alone. -/
theorem server_of_point_none {cfg : RedisConfig} {s t : System} {l : Label} (h : ContainStep cfg s l t)
    (hl : l.point = none) : t.server = s.server := by
  cases h with
  | start | watch | unreadable | miss | plan | conflict | crash => rfl
  | hit | ignored | exec | override | tick => simp [Label.point] at hl

/-- No call is under way. -/
def System.Quiet (s : System) : Prop := ∀ c, s.clients c = .idle

theorem System.Quiet.sound {s : System} (cfg : RedisConfig) (h : s.Quiet) : s.Sound cfg := by
  intro c
  rw [h c]
  trivial

/-- A concurrent run leaves the keyspace, and gives the replies, of its operations performed one at a
time in the order of their linearization points. -/
theorem run_linear {cfg : RedisConfig} {s t : System} {ls : List Label} (hs : s.Quiet)
    (h : Run (ContainStep cfg) s ls t) :
    replay (perform cfg) s.server ((ls.filterMap Label.point).map Prod.fst)
      = ((ls.filterMap Label.point).map Prod.snd, t.server) :=
  h.linearize (hs.sound cfg) (fun _ _ _ => System.sound_step)
    (fun _ _ _ _ _ => perform_point) (fun _ _ _ _ => server_of_point_none)

end Rtace.Containment
