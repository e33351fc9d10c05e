import Rtace.Common.Listing
import Rtace.Lib.Transition

/-!
# When the listing is exact

A call sees every rule that stays (`State.Covers`), by what `SCAN` promises. Whatever else the listing should
be, it is exactly if each step of the call allows it: `sound_step` says so of one step, and by induction it
holds of the call.
-/

namespace Rtace.Enforcement

open Lib Redis

/-! ## A call -/

/-- The groups that are not listed yet. -/
def Phase.pending : Phase → List Group
  | scanning g todo _ => g :: todo
  | asking g todo _ _ => g :: todo
  | returned _ => []

/-- The keys a call works on belong to the group. -/
def Phase.InGroup : Phase → Prop
  | scanning g _ c => ∀ k ∈ c.found, k ∈ g.keys
  | asking g _ keys _ => ∀ k ∈ keys, k ∈ g.keys
  | returned _ => True

/-- What holds in every state of a call, whatever Redis does. -/
structure State.Regular (s : State) : Prop where
  nodup : s.phase.pending.Nodup
  pending : ∀ g ∈ s.phase.pending, s.result g = []
  inGroup : s.phase.InGroup
  listed : ∀ g, ∀ r ∈ s.result g, r.key ∈ g.keys
  returned : ∀ l, s.phase = .returned (.ok l) → l = ⟨s.result, countOf s.result⟩

/-- What has been listed and asked so far is as it should be. -/
def Phase.Sound : Phase → Prop
  | scanning _ _ _ => True
  | asking g _ keys flat => (Label.scanned g keys).Fine ∧ AllAnswered keys flat
  | returned out => ∃ l, out = .ok l

structure State.Sound (s : State) : Prop where
  result : ∀ g, Enforcement.Sound g (s.result g)
  phase : s.phase.Sound

section

variable {s t : State} {l : Label} {g : Group} {todo : List Group} {keys : List String} {flat : List PipelineReply}

/-- What `collect` leads to: an error, the next group, or the return. -/
theorem collect_cases (s : State) (g : Group) (todo : List Group) (keys : List String) (flat : List PipelineReply) :
    (∃ e, execute flat = .error e ∧ s.collect g todo keys flat = { s with phase := .returned (.error e) }) ∨
    (execute flat = .ok flat ∧ ∃ result, result = Function.update s.result g (rulesOf g keys flat) ∧
      ((todo = [] ∧ s.collect g todo keys flat =
          { s with result, phase := .returned (.ok ⟨result, countOf result⟩) }) ∨
        ∃ g' rest, todo = g' :: rest ∧ s.collect g todo keys flat =
          { s with result, phase := .scanning g' rest (.start s.db) })) := by
  unfold State.collect execute
  split
  · exact .inl ⟨_, rfl, rfl⟩
  · refine .inr ⟨rfl, _, rfl, ?_⟩
    cases todo with
    | nil => exact .inl ⟨rfl, rfl⟩
    | cons g' rest => exact .inr ⟨g', rest, rfl, rfl⟩

theorem regular_start (now : ℕ) (db : Db) : (State.start now db).Regular where
  nodup := show ([.quarantines, .stepUps, .ipBlocks] : List Group).Nodup by decide
  pending := fun _ _ => rfl
  inGroup := fun k hk => absurd hk List.not_mem_nil
  listed := fun g r hr => absurd hr List.not_mem_nil
  returned := fun l hl => by cases hl

/-- The rules of one more group. -/
theorem State.Regular.listed_update (hs : s.Regular) (hkeys : ∀ k ∈ keys, k ∈ g.keys) :
    ∀ g', ∀ r ∈ Function.update s.result g (rulesOf g keys flat) g', r.key ∈ g'.keys := by
  refine (Function.forall_update_iff s.result fun g' rules => ∀ r ∈ rules, r.key ∈ g'.keys).mpr
    ⟨fun r hr => ?_, fun g' _ => hs.listed g'⟩
  have hmem : r.key ∈ (rulesOf g keys flat).map Rule.key := List.mem_map_of_mem hr
  rw [rulesOf_keys] at hmem
  exact hkeys _ hmem

theorem State.Regular.step (hs : s.Regular) (h : ListStep s l t) : t.Regular := by
  obtain ⟨hnodup, hpending, hgroup, hlisted, hreturned⟩ := hs
  cases h with
  | elsewhere now db hnow =>
      obtain ⟨now₀, db₀, result, phase⟩ := s
      cases phase with
      | scanning g todo c => exact ⟨hnodup, hpending, hgroup, hlisted, fun l hl => by cases hl⟩
      | asking g todo keys flat => exact ⟨hnodup, hpending, hgroup, hlisted, fun l hl => by cases hl⟩
      | returned out => exact ⟨hnodup, hpending, hgroup, hlisted, hreturned⟩
  | page keys hphase hkeys =>
      rw [hphase] at hnodup hpending hgroup
      refine ⟨hnodup, hpending, fun k hk => ?_, hlisted, fun l hl => by cases hl⟩
      rcases List.mem_append.mp hk with hk | hk
      · exact hgroup k hk
      · exact (hkeys k hk).1
  | scanned hphase hall =>
      rw [hphase] at hnodup hpending hgroup
      exact ⟨hnodup, hpending, hgroup, hlisted, fun l hl => by cases hl⟩
  | asked c hphase hnext =>
      rw [hphase] at hnodup hpending hgroup
      exact ⟨hnodup, hpending, hgroup, hlisted, fun l hl => by cases hl⟩
  | @collected g todo keys flat hphase hall =>
      have hs : s.Regular := ⟨hnodup, hpending, hgroup, hlisted, hreturned⟩
      rw [hphase] at hnodup hpending hgroup
      rcases collect_cases s g todo keys flat with ⟨e, -, heq⟩ | ⟨-, result, hresult, h⟩
      · rw [heq]
        exact ⟨List.nodup_nil, fun g' hg' => absurd hg' List.not_mem_nil, trivial, hlisted, fun l hl => by cases hl⟩
      have hlisted' : ∀ g', ∀ r ∈ result g', r.key ∈ g'.keys := by
        rw [hresult]
        exact hs.listed_update hgroup
      rcases h with ⟨-, heq⟩ | ⟨g', rest, rfl, heq⟩
      · rw [heq]
        refine ⟨List.nodup_nil, fun g' hg' => absurd hg' List.not_mem_nil, trivial, hlisted', fun l hl => ?_⟩
        cases hl
        rfl
      · rw [heq]
        refine ⟨(List.nodup_cons.mp hnodup).2, fun g'' hg'' => ?_, fun k hk => absurd hk List.not_mem_nil, hlisted',
          fun l hl => by cases hl⟩
        have hne : g'' ≠ g := fun hg => (List.nodup_cons.mp hnodup).1 (hg ▸ hg'')
        change result g'' = []
        rw [hresult, Function.update_of_ne hne]
        exact hpending g'' (List.mem_cons_of_mem _ hg'')

/-- Listing a group keeps everything sound exactly if its rules are. -/
theorem sound_update (hempty : s.result g = []) (rules : List Rule) :
    (∀ g', Sound g' (Function.update s.result g rules g')) ↔ (∀ g', Sound g' (s.result g')) ∧ Sound g rules := by
  rw [Function.forall_update_iff s.result Sound]
  constructor
  · rintro ⟨hrules, hothers⟩
    refine ⟨fun g' => ?_, hrules⟩
    by_cases hg : g' = g
    · rw [hg, hempty]
      exact sound_nil g
    · exact hothers g' hg
  · rintro ⟨hall, hrules⟩
    exact ⟨hrules, fun g' _ => hall g'⟩

/-- A step keeps everything sound exactly if it is fine, and nothing mends what was not sound. -/
theorem sound_step (hs : s.Regular) (h : ListStep s l t) : t.Sound ↔ s.Sound ∧ l.Fine := by
  cases h with
  | elsewhere now db hnow =>
      have hphase : (s.phase.observe (purge now db)).Sound ↔ s.phase.Sound := by
        cases s.phase <;> exact Iff.rfl
      exact ⟨fun ⟨hr, hp⟩ => ⟨⟨hr, hphase.mp hp⟩, trivial⟩, fun ⟨⟨hr, hp⟩, _⟩ => ⟨hr, hphase.mpr hp⟩⟩
  | page keys hphase hkeys =>
      exact ⟨fun ⟨hr, _⟩ => ⟨⟨hr, by rw [hphase]; trivial⟩, trivial⟩, fun ⟨⟨hr, _⟩, _⟩ => ⟨hr, trivial⟩⟩
  | scanned hphase hall =>
      constructor
      · rintro ⟨hr, hfine, -⟩
        exact ⟨⟨hr, by rw [hphase]; trivial⟩, hfine⟩
      · rintro ⟨⟨hr, -⟩, hfine⟩
        exact ⟨hr, hfine, fun i c r _ hflat => by simp at hflat⟩
  | asked c hphase hnext =>
      rw [← answered_reply c s.now s.db]
      constructor
      · rintro ⟨hr, hfine, hanswered⟩
        obtain ⟨hbefore, hlast⟩ := (answered_concat hnext).mp hanswered
        exact ⟨⟨hr, by rw [hphase]; exact ⟨hfine, hbefore⟩⟩, hlast⟩
      · rintro ⟨⟨hr, hp⟩, hlast⟩
        rw [hphase] at hp
        exact ⟨hr, hp.1, (answered_concat hnext).mpr ⟨hp.2, hlast⟩⟩
  | @collected g todo keys flat hphase hall =>
      obtain ⟨-, hpending, hgroup, -⟩ := hs
      rw [hphase] at hpending hgroup
      have hbefore : s.Sound ↔
          (∀ g', Sound g' (s.result g')) ∧ (Label.scanned g keys).Fine ∧ AllAnswered keys flat := by
        constructor
        · rintro ⟨hr, hp⟩
          rw [hphase] at hp
          exact ⟨hr, hp⟩
        · rintro ⟨hr, hp⟩
          exact ⟨hr, by rwa [hphase]⟩
      have hafter := sound_update (hpending g List.mem_cons_self) (rulesOf g keys flat)
      rw [sound_rulesOf hgroup hall, ← hbefore] at hafter
      have hfine : Label.collected.Fine := trivial
      rw [and_iff_left hfine]
      rcases collect_cases s g todo keys flat with ⟨e, he, heq⟩ | ⟨-, result, rfl, ⟨-, heq⟩ | ⟨g', rest, -, heq⟩⟩
      · -- an error among the replies leaves one of them unanswered
        rw [heq]
        constructor
        · rintro ⟨-, l, hl⟩
          cases hl
        · intro h
          cases (execute_answered hall (hbefore.mp h).2.2).symm.trans he
      · rw [heq, ← hafter]
        exact ⟨fun h => h.result, fun h => ⟨h, _, rfl⟩⟩
      · rw [heq, ← hafter]
        exact ⟨fun h => h.result, fun h => ⟨h, trivial⟩⟩

end

/-! ## What `SCAN` promises -/

/-- The group is listed. -/
def Phase.Listed (g : Group) : Phase → Prop
  | returned (.ok _) => True
  | returned (.error _) => False
  | p => g ∉ p.pending

/-- The present group has the key, or will. -/
def Phase.Holds (k : String) : Phase → Prop
  | scanning _ _ c => k ∈ c.steady
  | asking g _ keys _ => k ∈ g.keys → k ∈ keys
  | returned _ => True

/-- The key is there, in the present group and in the groups that are listed. -/
structure State.Covers (s : State) (k : String) : Prop where
  live : k ∈ liveKeys s.db
  phase : s.phase.Holds k
  listed : ∀ g, s.phase.Listed g → k ∈ g.keys → k ∈ (s.result g).map Rule.key

theorem LiveThroughout.before {db : Db} {ls : List Label} {l : Label} {k : String}
    (h : LiveThroughout db (ls ++ [l]) k) : LiveThroughout db ls k :=
  ⟨h.1, fun db' hmem => h.2 db' (List.mem_append_left _ hmem)⟩

/-- A step keeps every key that is still there after it. -/
theorem State.Covers.step {s t : State} {l : Label} {k : String} (hs : s.Covers k) (h : ListStep s l t)
    (hlive : ∀ db, l = .elsewhere db → k ∈ liveKeys db) : t.Covers k := by
  obtain ⟨hdb, hphase, hlisted⟩ := hs
  cases h with
  | elsewhere now db hnow =>
      have hk := hlive _ rfl
      obtain ⟨now₀, db₀, result, phase⟩ := s
      cases phase with
      | scanning g todo c => exact ⟨hk, ⟨hphase, hk⟩, hlisted⟩
      | asking g todo keys flat => exact ⟨hk, hphase, hlisted⟩
      | returned out => exact ⟨hk, hphase, hlisted⟩
  | page keys heq hkeys =>
      rw [heq] at hphase hlisted
      exact ⟨hdb, hphase, hlisted⟩
  | scanned heq hall =>
      rw [heq] at hphase hlisted
      exact ⟨hdb, hall k hphase, hlisted⟩
  | asked c heq hnext =>
      rw [heq] at hphase hlisted
      exact ⟨hdb, hphase, hlisted⟩
  | @collected g todo keys flat heq hall =>
      rw [heq] at hphase hlisted
      have hresult : ∀ g', g' ∉ todo → k ∈ g'.keys →
          k ∈ (Function.update s.result g (rulesOf g keys flat) g').map Rule.key := by
        refine (Function.forall_update_iff s.result fun g' rules => g' ∉ todo → k ∈ g'.keys →
          k ∈ rules.map Rule.key).mpr ⟨fun _ hk => ?_, fun g' hg hg' hk => ?_⟩
        · rw [rulesOf_keys]
          exact hphase hk
        · exact hlisted g' (List.not_mem_cons_of_ne_of_not_mem hg hg') hk
      rcases collect_cases s g todo keys flat with ⟨e, -, hout⟩ | ⟨-, result, rfl, ⟨rfl, hout⟩ | ⟨g', rest, rfl, hout⟩⟩
      · rw [hout]
        exact ⟨hdb, trivial, fun g' hg' => absurd hg' id⟩
      · rw [hout]
        exact ⟨hdb, trivial, fun g' _ hk => hresult g' List.not_mem_nil hk⟩
      · rw [hout]
        exact ⟨hdb, hdb, hresult⟩

/-! ## The listing -/

section

variable {now : ℕ} {db : Db} {ls : List Label} {t : State}

/-- The invariants of a call. -/
theorem run_regular (h : Run ListStep (.start now db) ls t) : t.Regular :=
  h.invariant (regular_start now db) fun _ _ _ hs hstep => hs.step hstep

/-- Everything is sound exactly if all steps are fine. -/
theorem run_sound (h : Run ListStep (.start now db) ls t) : t.Sound ↔ ∀ l ∈ ls, l.Fine := by
  induction h with
  | nil => exact ⟨fun _ l hl => absurd hl List.not_mem_nil, fun _ => ⟨sound_nil, trivial⟩⟩
  | snoc hrun hstep ih =>
      rw [sound_step (run_regular hrun) hstep, ih]
      simp [or_imp, forall_and]

/-- A key that is there all the time is covered. -/
theorem run_covers (h : Run ListStep (.start now db) ls t) {k : String}
    (hlive : LiveThroughout (purge now db) ls k) : t.Covers k := by
  induction h with
  | nil =>
      exact ⟨hlive.1, hlive.1, fun g hg => absurd g.mem_all hg⟩
  | snoc hrun hstep ih =>
      refine (ih hlive.before).step hstep fun db' heq => hlive.2 db' ?_
      rw [heq]
      exact List.mem_append_right _ List.mem_cons_self

/-- The groups have their keys to themselves. -/
theorem keys_disjoint {g g' : Group} (h : g ≠ g') : Disjoint g.keys g'.keys := by
  refine keyFamily_disjoint ?_
  revert h
  cases g <;> cases g' <;> decide

/-- No rule is listed twice exactly if none is in its group. -/
theorem nodup_listed {rules : Group → List Rule} (h : ∀ g, ∀ r ∈ rules g, r.key ∈ g.keys) (count : ℕ) :
    (Listing.keys ⟨rules, count⟩).Nodup ↔ ∀ g, ((rules g).map Rule.key).Nodup := by
  rw [Listing.keys, List.nodup_flatMap]
  constructor
  · rintro ⟨hall, -⟩ g
    exact hall g g.mem_all
  · intro hall
    refine ⟨fun g _ => hall g, ?_⟩
    refine List.Pairwise.imp (R := (· ≠ ·)) (fun {g g'} hne k hk hk' => ?_) (show Group.all.Nodup by decide)
    obtain ⟨r, hr, rfl⟩ := List.mem_map.mp hk
    obtain ⟨r', hr', heq⟩ := List.mem_map.mp hk'
    exact Set.disjoint_left.mp (keys_disjoint hne) (h g r hr) (heq ▸ h g' r' hr')

theorem countOf_eq (rules : Group → List Rule) : countOf rules = (Listing.keys ⟨rules, countOf rules⟩).length := by
  simp [countOf, Listing.keys, List.length_flatMap]

/-- The count is the number of distinct rules exactly if no rule is listed twice. -/
theorem count_distinct_iff {rules : Group → List Rule} (h : ∀ g, ∀ r ∈ rules g, r.key ∈ g.keys) :
    countOf rules = (Listing.keys ⟨rules, countOf rules⟩).toFinset.card ↔ ∀ g, ((rules g).map Rule.key).Nodup := by
  rw [← nodup_listed h (countOf rules), countOf_eq rules, eq_comm]
  exact Multiset.toFinset_card_eq_card_iff_nodup

/-- When a call returns, its listing is exact if and only if every step of the call was fine. -/
theorem listing_exact_iff {out : Except PyError Listing} (h : Run ListStep (.start now db) ls t)
    (hout : t.phase = .returned out) :
    (∃ l, out = .ok l ∧ l.Exact (LiveThroughout (purge now db) ls)) ↔ ∀ l ∈ ls, l.Fine := by
  have hregular := run_regular h
  rw [← run_sound h]
  constructor
  · rintro ⟨l, rfl, honce, hactive, hcount, haddress⟩
    obtain rfl := hregular.returned l hout
    have hnodup := (count_distinct_iff hregular.listed).mp hcount
    refine ⟨fun g => ⟨hnodup g, hactive g, ?_⟩, ?_⟩
    · rintro rfl
      exact haddress
    · rw [hout]
      exact ⟨_, rfl⟩
  · rintro ⟨hsound, hphase⟩
    rw [hout] at hphase
    obtain ⟨l, rfl⟩ := hphase
    obtain rfl := hregular.returned l hout
    refine ⟨_, rfl, fun g k hk hlive => ?_, fun g => (hsound g).active, ?_, (hsound .ipBlocks).address rfl⟩
    · -- `SCAN` has yielded the key at least once, and nothing twice
      have hcovers := run_covers h hlive
      rw [List.count_eq_one_of_mem (hsound g).nodup]
      exact hcovers.listed g (by rw [hout]; trivial) hk
    · exact (count_distinct_iff hregular.listed).mpr fun g => (hsound g).nodup

end

/-! ## A rule that expires -/

namespace Sample

/-- The only rule is a quarantine of `u1`, until `deadline`. -/
def quarantine (deadline : ℕ) : Db := fun k =>
  if k = quarantineKey "u1" then some ⟨.str (.text "det-1"), some deadline⟩ else none

theorem live_quarantine {deadline now : ℕ} {k : String} :
    k ∈ liveKeys (purge now (quarantine deadline)) ↔ k = quarantineKey "u1" ∧ now < deadline := by
  by_cases hk : k = quarantineKey "u1"
  · simp [liveKeys, purge, quarantine, hk]
  · simp [liveKeys, purge, quarantine, hk]

/-- What happens in a call that meets the rule at time 0 and asks for it at `now`. -/
def labels (deadline now : ℕ) : List Label :=
  let db := purge now (quarantine deadline)
  [.page [quarantineKey "u1"], .scanned .quarantines [quarantineKey "u1"], .elsewhere db,
    .asked (.ttl (quarantineKey "u1")) now db, .asked (.get (quarantineKey "u1")) now db, .collected,
    .scanned .stepUps [], .collected, .scanned .ipBlocks [], .collected]

/-- The rule as it is listed then. -/
def listedRule (deadline now : ℕ) : Rule where
  subjectField := "user_id"
  subject := "u1"
  key := quarantineKey "u1"
  ttlSeconds := .int (remaining now (purge now (quarantine deadline) (quarantineKey "u1")))
  setBy := getReply (purge now (quarantine deadline) (quarantineKey "u1"))

theorem getReply_quarantine (deadline now : ℕ) :
    (getReply (purge now (quarantine deadline) (quarantineKey "u1"))).isError = false := by
  rcases purge_cases now (quarantine deadline) (quarantineKey "u1") with h | h
  · rw [h, quarantine, if_pos rfl]
    rfl
  · rw [h]
    rfl

/-- A group without rules. -/
theorem run_empty {now : ℕ} {db : Db} {result : Group → List Rule} {g : Group} {todo : List Group}
    (hnone : ∀ k ∈ liveKeys db, k ∉ g.keys) :
    Run ListStep ⟨now, db, result, .scanning g todo (.start db)⟩ [.scanned g [], .collected]
      (State.collect ⟨now, db, result, .asking g todo [] []⟩ g todo [] []) :=
  .cons (.scanned (c := .start db) rfl fun k hk hmem => absurd hmem (hnone k hk)) (.single (.collected rfl rfl))

/-- Such a call returns. -/
theorem run_labels {deadline : ℕ} (hdeadline : 0 < deadline) (now : ℕ) :
    ∃ t l, Run ListStep (.start 0 (quarantine deadline)) (labels deadline now) t ∧ t.phase = .returned (.ok l) ∧
      l.rules .quarantines = [listedRule deadline now] := by
  have hlive := live_quarantine.mpr ⟨rfl, hdeadline⟩
  have hother : ∀ g : Group, g ≠ .quarantines → ∀ k ∈ liveKeys (purge now (quarantine deadline)), k ∉ g.keys := by
    intro g hg k hk hmem
    rw [(live_quarantine.mp hk).1] at hmem
    exact Set.disjoint_left.mp (keys_disjoint hg) hmem (mem_keyFamily_append _ _)
  have hscan : Run ListStep (.start 0 (quarantine deadline))
      [.page [quarantineKey "u1"], .scanned .quarantines [quarantineKey "u1"]]
      ⟨0, purge 0 (quarantine deadline), fun _ => [],
        .asking .quarantines [.stepUps, .ipBlocks] [quarantineKey "u1"] []⟩ := by
    refine .cons (.page [quarantineKey "u1"] rfl ?_)
      (.single (.scanned (c := { Cursor.start (purge 0 (quarantine deadline)) with found := [quarantineKey "u1"] }) rfl ?_))
    · intro k hk
      rw [List.mem_singleton.mp hk]
      exact ⟨mem_keyFamily_append _ _, hlive⟩
    · intro k hk _
      exact List.mem_singleton.mpr (live_quarantine.mp hk).1
  have hask : Run ListStep
      ⟨0, purge 0 (quarantine deadline), fun _ => [],
        .asking .quarantines [.stepUps, .ipBlocks] [quarantineKey "u1"] []⟩
      [.elsewhere (purge now (quarantine deadline)),
        .asked (.ttl (quarantineKey "u1")) now (purge now (quarantine deadline)),
        .asked (.get (quarantineKey "u1")) now (purge now (quarantine deadline))]
      ⟨now, purge now (quarantine deadline), fun _ => [],
        .asking .quarantines [.stepUps, .ipBlocks] [quarantineKey "u1"]
          [(listedRule deadline now).ttlSeconds, (listedRule deadline now).setBy]⟩ :=
    .cons (.elsewhere now _ (Nat.zero_le _)) (.cons (@ListStep.asked _ _ _ _ [] _ rfl rfl)
      (.single (@ListStep.asked _ _ _ _ [(listedRule deadline now).ttlSeconds] _ rfl rfl)))
  have hexec : execute [(listedRule deadline now).ttlSeconds, (listedRule deadline now).setBy] =
      .ok [(listedRule deadline now).ttlSeconds, (listedRule deadline now).setBy] := by
    refine if_neg ?_
    simp only [List.any_cons, List.any_nil, listedRule, getReply_quarantine]
    exact Bool.false_ne_true
  have hcollect := Run.single (ListStep.collected (s := ⟨now, purge now (quarantine deadline), fun _ => [],
    .asking .quarantines [.stepUps, .ipBlocks] [quarantineKey "u1"]
      [(listedRule deadline now).ttlSeconds, (listedRule deadline now).setBy]⟩) rfl rfl)
  rw [State.collect, hexec] at hcollect
  exact ⟨_, _, ((hscan.append hask).append hcollect).append
    ((run_empty (hother .stepUps (by decide))).append (run_empty (hother .ipBlocks (by decide)))), rfl, rfl⟩

/-- All steps of a call are fine that asks half a second before the deadline. -/
theorem fine_labels {deadline now : ℕ} (h : now + 500 ≤ deadline) : ∀ l ∈ labels deadline now, l.Fine := by
  have hkey : purge now (quarantine deadline) (quarantineKey "u1") = some ⟨.str (.text "det-1"), some deadline⟩ := by
    have hlt : now < deadline := by omega
    simp [purge, quarantine, hlt]
  have hnil : ∀ g, (Label.scanned g []).Fine := fun g => ⟨List.nodup_nil, fun _ k hk => absurd hk List.not_mem_nil⟩
  simp only [labels, List.forall_mem_cons]
  refine ⟨trivial, ⟨List.nodup_singleton _, fun hg => by cases hg⟩, trivial, ⟨_, deadline, hkey, rfl, h⟩, ?_, trivial,
    hnil _, trivial, hnil _, trivial, fun l hl => absurd hl List.not_mem_nil⟩
  rw [Label.Fine, hkey]
  rfl

end Sample

open Sample

/-- A call that asks in time for a quarantine of a minute lists it exactly. -/
theorem listing_exact_iff_minute :
    ∃ t l, Run ListStep (.start 0 (quarantine 60000)) (labels 60000 10) t ∧ t.phase = .returned (.ok l) ∧
      l.Exact (LiveThroughout (purge 0 (quarantine 60000)) (labels 60000 10)) := by
  obtain ⟨t, l, hrun, hreturned, -⟩ := run_labels (show 0 < 60000 by decide) 10
  obtain ⟨l', hl', hexact⟩ := (listing_exact_iff hrun hreturned).mpr (fine_labels (by decide))
  cases hl'
  exact ⟨t, l, hrun, hreturned, hexact⟩

/-- A quarantine that ends between the `SCAN` and the `TTL` is listed with -2 seconds to live and no origin. -/
theorem expired_rule_listed :
    ∃ t l, Run ListStep (.start 0 (quarantine 1000)) (labels 1000 1000) t ∧ t.phase = .returned (.ok l) ∧
      (∃ r ∈ l.rules .quarantines, r.key = quarantineKey "u1" ∧ r.ttlSeconds = .int (-2) ∧ r.setBy = .nil) ∧
      ¬ l.Exact (LiveThroughout (purge 0 (quarantine 1000)) (labels 1000 1000)) := by
  obtain ⟨t, l, hrun, hreturned, hlisted⟩ := run_labels (show 0 < 1000 by decide) 1000
  have hgone : purge 1000 (quarantine 1000) (quarantineKey "u1") = none := by
    simp [purge, quarantine]
  have hmem : listedRule 1000 1000 ∈ l.rules .quarantines := by
    rw [hlisted]
    exact List.mem_singleton_self _
  have httl : (listedRule 1000 1000).ttlSeconds = .int (-2) := by
    rw [listedRule, hgone]
    rfl
  have hset : (listedRule 1000 1000).setBy = .nil := by
    rw [listedRule, hgone]
    rfl
  refine ⟨t, l, hrun, hreturned, ⟨_, hmem, rfl, httl, hset⟩, fun hexact => ?_⟩
  obtain ⟨-, p, hp⟩ := hexact.active _ _ hmem
  rw [hset] at hp
  cases hp

end Rtace.Enforcement
