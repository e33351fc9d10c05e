import Mathlib.Data.List.Infix
import Mathlib.Data.Set.Lattice
import Mathlib.Order.CompletePartialOrder

/-!
# Families of string keys

Keys of one kind share a literal prefix. Two prefixes neither of which is a prefix of the other
give disjoint families, whatever strings follow them.
-/

namespace Rtace.Lib

/-- The keys that start with `p`. -/
def keyFamily (p : String) : Set String := {k | p.toList <+: k.toList}

/-- Neither prefix extends the other. -/
def Incomparable (p q : String) : Prop := ¬ p.toList <+: q.toList ∧ ¬ q.toList <+: p.toList

instance (p q : String) : Decidable (Incomparable p q) :=
  inferInstanceAs (Decidable (_ ∧ _))

theorem mem_keyFamily_append (p x : String) : p ++ x ∈ keyFamily p := by
  simp [keyFamily, String.toList_append]

/-- Families with incomparable prefixes are disjoint. -/
theorem keyFamily_disjoint {p q : String} (h : Incomparable p q) :
    Disjoint (keyFamily p) (keyFamily q) := by
  refine Set.disjoint_left.mpr fun k hp hq => ?_
  rcases List.prefix_or_prefix_of_prefix hp hq with hpq | hqp
  · exact h.1 hpq
  · exact h.2 hqp

/-- The keys that start with one of `ps`. -/
def keyFamilies (ps : List String) : Set String := {k | ∃ p ∈ ps, k ∈ keyFamily p}

theorem mem_keyFamilies {ps : List String} {p : String} (hp : p ∈ ps) (x : String) :
    p ++ x ∈ keyFamilies ps :=
  ⟨p, hp, mem_keyFamily_append p x⟩

/-- Two lists of pairwise incomparable prefixes give disjoint sets of keys. -/
theorem keyFamilies_disjoint {ps qs : List String}
    (h : ∀ p ∈ ps, ∀ q ∈ qs, Incomparable p q) : Disjoint (keyFamilies ps) (keyFamilies qs) := by
  refine Set.disjoint_left.mpr ?_
  rintro k ⟨p, hp, hkp⟩ ⟨q, hq, hkq⟩
  exact Set.disjoint_left.mp (keyFamily_disjoint (h p hp q hq)) hkp hkq

/-- Keys with incomparable prefixes differ. -/
theorem append_ne_of_incomparable {p q : String} (h : Incomparable p q) (x y : String) :
    p ++ x ≠ q ++ y := by
  intro heq
  exact Set.disjoint_left.mp (keyFamily_disjoint h) (mem_keyFamily_append p x)
    (heq ▸ mem_keyFamily_append q y)

end Rtace.Lib
