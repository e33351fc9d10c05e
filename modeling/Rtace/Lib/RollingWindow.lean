import Mathlib.Algebra.Order.Group.Defs
import Mathlib.Data.Finset.Card
import Mathlib.Data.List.MinMax
import Rtace.Lib.ScoredSet

/-!
# Rolling windows

A scored set to which every arrival is added after what its own time puts out of the window is dropped. The
window is read off the whole list of arrivals: a member is held with the time of its last arrival as long as
no later arrival drops it. For arrivals in order of time the window holds what is recent; for others it need
not.
-/

namespace Rtace.Lib

variable {α κ : Type} [DecidableEq α] [LinearOrder κ]

namespace ScoredSet

theorem mem_slide {s : ScoredSet α κ} {cutoff score : κ} {member : α} {e : α × κ} :
    e ∈ (s.slide cutoff score member).entries ↔
      e = (member, score) ∨ e ∈ s.entries ∧ cutoff < e.2 ∧ e.1 ≠ member := by
  simp [slide, add, trim, and_comm]

/-- The members, without their scores. -/
def memberSet (s : ScoredSet α κ) : Finset α := (s.entries.map Prod.fst).toFinset

omit [LinearOrder κ] in
theorem card_memberSet (s : ScoredSet α κ) : s.memberSet.card = s.card := by
  rw [memberSet, List.toFinset_card_of_nodup s.nodup, List.length_map, card]

omit [LinearOrder κ] in
theorem mem_memberSet {s : ScoredSet α κ} {m : α} : m ∈ s.memberSet ↔ ∃ t, (m, t) ∈ s.entries := by
  simp [memberSet]

end ScoredSet

variable [AddCommGroup κ] (w : κ)

/-- The window after these arrivals, each a member with its time. -/
def slideAll (s : ScoredSet α κ) (arrivals : List (α × κ)) : ScoredSet α κ :=
  arrivals.foldl (fun s a => s.slide (a.2 - w) a.2 a.1) s

theorem slideAll_snoc (s : ScoredSet α κ) (arrivals : List (α × κ)) (a : α × κ) :
    slideAll w s (arrivals ++ [a]) = (slideAll w s arrivals).slide (a.2 - w) a.2 a.1 := by
  rw [slideAll, List.foldl_append]
  rfl

/-- These arrivals leave `e` in the window: no member `e.1` again, and no time that puts `e` out of it. -/
def Spares (arrivals : List (α × κ)) (e : α × κ) : Prop :=
  ∀ a ∈ arrivals, a.1 ≠ e.1 ∧ a.2 - w < e.2

/-- What the window holds: last arrivals that no later one has dropped, and what was there before and has
been left alone. -/
theorem mem_slideAll {s : ScoredSet α κ} {arrivals : List (α × κ)} {e : α × κ} :
    e ∈ (slideAll w s arrivals).entries ↔
      (∃ before after, arrivals = before ++ e :: after ∧ Spares w after e) ∨
        e ∈ s.entries ∧ Spares w arrivals e := by
  induction arrivals using List.reverseRecOn with
  | nil => simp [slideAll, Spares]
  | append_singleton arrivals a ih =>
      rw [slideAll_snoc, ScoredSet.mem_slide, ih]
      constructor
      · rintro (rfl | ⟨⟨before, after, rfl, hspares⟩ | ⟨hs, hspares⟩, hcut, hne⟩)
        · exact Or.inl ⟨arrivals, [], rfl, by simp [Spares]⟩
        · refine Or.inl ⟨before, after ++ [a], by simp, fun b hb => ?_⟩
          rcases List.mem_append.mp hb with hb | hb
          · exact hspares b hb
          · obtain rfl := List.mem_singleton.mp hb
            exact ⟨hne.symm, hcut⟩
        · refine Or.inr ⟨hs, fun b hb => ?_⟩
          rcases List.mem_append.mp hb with hb | hb
          · exact hspares b hb
          · obtain rfl := List.mem_singleton.mp hb
            exact ⟨hne.symm, hcut⟩
      · rintro (⟨before, after, heq, hspares⟩ | ⟨hs, hspares⟩)
        · rcases List.eq_nil_or_concat after with rfl | ⟨after, b, rfl⟩
          · obtain ⟨-, hlast⟩ := List.append_inj' heq rfl
            exact Or.inl (List.singleton_inj.mp hlast).symm
          · rw [List.concat_eq_append, ← List.cons_append, ← List.append_assoc] at heq
            obtain ⟨rfl, hlast⟩ := List.append_inj' heq rfl
            obtain rfl := List.singleton_inj.mp hlast
            have hb := hspares a (by simp)
            refine Or.inr ⟨Or.inl ⟨before, after, rfl, fun b hb => hspares b (by simp [hb])⟩, hb.2, hb.1.symm⟩
        · have ha := hspares a (by simp)
          exact Or.inr ⟨Or.inr ⟨hs, fun b hb => hspares b (by simp [hb])⟩, ha.2, ha.1.symm⟩

/-! ## Arrivals in order of time -/

/-- The latest time at which a member has arrived. -/
def latest (arrivals : List (α × κ)) (m : α) : WithBot κ :=
  ((arrivals.filter (·.1 = m)).map Prod.snd).maximum

/-- The members whose latest time is after the cutoff. -/
def recentMembers (arrivals : List (α × κ)) (cutoff : κ) : Finset α :=
  (arrivals.map Prod.fst).toFinset.filter fun m => cutoff < latest arrivals m

omit [AddCommGroup κ] in
theorem mem_recentMembers {arrivals : List (α × κ)} {cutoff : κ} {m : α} :
    m ∈ recentMembers arrivals cutoff ↔ ∃ t, (m, t) ∈ arrivals ∧ cutoff < t := by
  have hmem : ∀ t, t ∈ (arrivals.filter (·.1 = m)).map Prod.snd ↔ (m, t) ∈ arrivals := by
    simp
  simp only [recentMembers, Finset.mem_filter, List.mem_toFinset]
  constructor
  · rintro ⟨-, hlatest⟩
    by_contra hnone
    refine absurd hlatest (not_lt.mpr (List.maximum_le_of_forall_le fun t ht => ?_))
    exact WithBot.coe_le_coe.mpr (not_lt.mp fun hcut => hnone ⟨t, (hmem t).mp ht, hcut⟩)
  · rintro ⟨t, ht, hcut⟩
    refine ⟨List.mem_map_of_mem (f := Prod.fst) ht, ?_⟩
    calc (cutoff : WithBot κ) < t := WithBot.coe_lt_coe.mpr hcut
      _ ≤ latest arrivals m := List.le_maximum_of_mem' ((hmem t).mpr ht)

omit [DecidableEq α] [LinearOrder κ] [AddCommGroup κ] in
/-- If some element has a property, there is a last one that has it. -/
theorem exists_last {l : List α} {P : α → Prop} (h : ∃ x ∈ l, P x) :
    ∃ before a after, l = before ++ a :: after ∧ P a ∧ ∀ b ∈ after, ¬ P b := by
  induction l with
  | nil => simp at h
  | cons x l ih =>
      by_cases hlater : ∃ y ∈ l, P y
      · obtain ⟨before, a, after, rfl, ha, hafter⟩ := ih hlater
        exact ⟨x :: before, a, after, rfl, ha, hafter⟩
      · obtain ⟨y, hy, hPy⟩ := h
        rcases List.mem_cons.mp hy with rfl | hy
        · exact ⟨[], y, l, rfl, hPy, fun b hb hPb => hlater ⟨b, hb, hPb⟩⟩
        · exact absurd ⟨y, hy, hPy⟩ hlater

omit [DecidableEq α] [AddCommGroup κ] in
/-- In order of time, the last arrival of a member is also its latest. -/
theorem exists_last_arrival {arrivals : List (α × κ)} (horder : arrivals.Pairwise fun a b => a.2 ≤ b.2) {m : α}
    {t : κ} (h : (m, t) ∈ arrivals) :
    ∃ before t' after, arrivals = before ++ (m, t') :: after ∧ t ≤ t' ∧ ∀ b ∈ after, b.1 ≠ m := by
  obtain ⟨before, ⟨m', t'⟩, after, rfl, hm, hafter⟩ := exists_last (P := fun b => b.1 = m) ⟨(m, t), h, rfl⟩
  obtain rfl : m' = m := hm
  refine ⟨before, t', after, rfl, ?_, hafter⟩
  rcases List.mem_append.mp h with h | h
  · exact (List.pairwise_append.mp horder).2.2 _ h _ List.mem_cons_self
  rcases List.mem_cons.mp h with h | h
  · rw [(Prod.mk.inj h).2]
  · exact absurd rfl (hafter _ h)

variable [IsOrderedAddMonoid κ]

/-- After arrivals in order of time, the members of the window are the recent ones. -/
theorem memberSet_slideAll (hw : 0 < w) {arrivals : List (α × κ)} {a : α × κ}
    (horder : (arrivals ++ [a]).Pairwise fun a b => a.2 ≤ b.2) :
    (slideAll w .empty (arrivals ++ [a])).memberSet = recentMembers (arrivals ++ [a]) (a.2 - w) := by
  have hlast : ∀ b ∈ arrivals ++ [a], b.2 ≤ a.2 := by
    intro b hb
    rcases List.mem_append.mp hb with hb | hb
    · exact (List.pairwise_append.mp horder).2.2 b hb a (by simp)
    · rw [List.mem_singleton.mp hb]
  ext m
  rw [ScoredSet.mem_memberSet, mem_recentMembers]
  constructor
  · rintro ⟨t, ht⟩
    rcases (mem_slideAll w).mp ht with ⟨before, after, heq, hspares⟩ | ⟨hempty, -⟩
    · refine ⟨t, by rw [heq]; simp, ?_⟩
      -- the last arrival either is this one or spares it
      rcases List.eq_nil_or_concat after with rfl | ⟨after, b, rfl⟩
      · obtain ⟨-, hsame⟩ := List.append_inj' heq rfl
        rw [List.singleton_inj.mp hsame]
        exact sub_lt_self t hw
      · rw [List.concat_eq_append, ← List.cons_append, ← List.append_assoc] at heq
        obtain ⟨-, hsame⟩ := List.append_inj' heq rfl
        rw [List.singleton_inj.mp hsame]
        exact (hspares b (by simp)).2
    · cases hempty
  · rintro ⟨t, ht, hcut⟩
    obtain ⟨before, t', after, heq, hle, hafter⟩ := exists_last_arrival horder ht
    refine ⟨t', (mem_slideAll w).mpr (Or.inl ⟨before, after, heq, fun b hb => ⟨hafter b hb, ?_⟩⟩)⟩
    calc b.2 - w ≤ a.2 - w := sub_le_sub_right (hlast b (by rw [heq]; simp [hb])) w
      _ < t := hcut
      _ ≤ t' := hle

end Rtace.Lib
