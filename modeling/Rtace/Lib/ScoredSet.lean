import Mathlib.Data.List.Nodup
import Mathlib.Order.Lattice

/-!
# Scored sets

A finite set of members, each with one score, with the three operations a rolling window is made
of: drop the members up to a cutoff, insert or rescore a member, count. A member occurs once, which
the structure carries.
-/

namespace Rtace.Lib

variable {α κ : Type} [DecidableEq α] [LinearOrder κ]

/-- Members with their scores; no member occurs twice. -/
@[ext]
structure ScoredSet (α κ : Type) where
  entries : List (α × κ)
  nodup : (entries.map Prod.fst).Nodup

namespace ScoredSet

/-- No members. -/
def empty : ScoredSet α κ := ⟨[], List.nodup_nil⟩

/-- Keep the members whose score is above `cutoff`. -/
def trim (w : ScoredSet α κ) (cutoff : κ) : ScoredSet α κ where
  entries := w.entries.filter fun e => cutoff < e.2
  nodup := w.nodup.sublist (List.filter_sublist.map _)

/-- Insert `member` with `score`, replacing its old score if it has one. -/
def add (w : ScoredSet α κ) (score : κ) (member : α) : ScoredSet α κ where
  entries := (member, score) :: w.entries.filter fun e => e.1 ≠ member
  nodup := by
    rw [List.map_cons, List.nodup_cons]
    refine ⟨fun h => ?_, w.nodup.sublist (List.filter_sublist.map _)⟩
    obtain ⟨e, he, rfl⟩ := List.mem_map.mp h
    simpa using (List.mem_filter.mp he).2

/-- The number of members. -/
def card (w : ScoredSet α κ) : ℕ := w.entries.length

/-- One window update: drop what is at or below the cutoff, then insert the member. -/
def slide (w : ScoredSet α κ) (cutoff score : κ) (member : α) : ScoredSet α κ :=
  (w.trim cutoff).add score member

omit [DecidableEq α] in
theorem mem_trim {w : ScoredSet α κ} {cutoff : κ} {e : α × κ} :
    e ∈ (w.trim cutoff).entries ↔ e ∈ w.entries ∧ cutoff < e.2 := by
  simp [trim]

/-- Repeating a window update with the same arguments changes nothing. -/
theorem slide_slide (w : ScoredSet α κ) (cutoff score : κ) (member : α) :
    (w.slide cutoff score member).slide cutoff score member = w.slide cutoff score member := by
  set rest := ((w.trim cutoff).entries.filter fun e => e.1 ≠ member) with hrest
  have hmem : ∀ e ∈ rest, cutoff < e.2 ∧ e.1 ≠ member := by
    intro e he
    obtain ⟨htrim, hne⟩ := List.mem_filter.mp he
    exact ⟨(mem_trim.mp htrim).2, by simpa using hne⟩
  have htrim : (rest.filter fun e => cutoff < e.2) = rest :=
    List.filter_eq_self.mpr fun e he => by simpa using (hmem e he).1
  have hkeep : (rest.filter fun e => e.1 ≠ member) = rest :=
    List.filter_eq_self.mpr fun e he => by simpa using (hmem e he).2
  have hslide : (w.slide cutoff score member).entries = (member, score) :: rest := rfl
  ext1
  rw [hslide]
  show (member, score) :: (((w.slide cutoff score member).entries.filter
    fun e => cutoff < e.2).filter fun e => e.1 ≠ member) = _
  rw [hslide]
  -- the second trim meets only survivors of the first, plus the member itself
  by_cases h : cutoff < score
  · rw [List.filter_cons_of_pos (by simpa using h), htrim, List.filter_cons_of_neg (by simp), hkeep]
  · rw [List.filter_cons_of_neg (by simpa using h), htrim, hkeep]

end ScoredSet

end Rtace.Lib
