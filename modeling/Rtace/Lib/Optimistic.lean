import Mathlib.Data.List.Basic

/-!
# Optimistic transactions over a keyed store

A client watches some keys and reads them one by one; any write to a watched key marks it dirty, and a
dirty client may not commit. What a client concluded from its watched keys therefore still holds at the
commit, however the other clients were scheduled.
-/

namespace Rtace.Lib

variable {K V : Type*}

/-- A client's watch: the keys, and whether one of them has been touched since. -/
structure Watch (K : Type*) where
  keys : List K
  dirty : Bool

namespace Watch

/-- A write that touches the keys of `touched`. -/
def touch (w : Watch K) (touched : K → Bool) : Watch K := { w with dirty := w.dirty || w.keys.any touched }

/-- `P` is a property of the keys of `w` alone. -/
def Local (w : Watch K) (P : (K → V) → Prop) : Prop :=
  ∀ s t : K → V, (∀ k ∈ w.keys, s k = t k) → P s → P t

@[simp] theorem touch_keys (w : Watch K) (touched : K → Bool) : (w.touch touched).keys = w.keys := rfl

/-- A client that is clean after a write was clean before it, and its keys are as they were. -/
theorem eq_of_clean {w : Watch K} {touched : K → Bool} {s t : K → V}
    (hframe : ∀ k, touched k = false → t k = s k) (h : (w.touch touched).dirty = false) :
    w.dirty = false ∧ ∀ k ∈ w.keys, t k = s k := by
  simp only [touch, Bool.or_eq_false_iff, List.any_eq_false, Bool.not_eq_true] at h
  exact ⟨h.1, fun k hk => hframe k (h.2 k hk)⟩

/-- What a clean client concluded from its keys survives every write that leaves it clean. -/
theorem preserve {w : Watch K} {P : (K → V) → Prop} (hP : w.Local P) {touched : K → Bool} {s t : K → V}
    (hframe : ∀ k, touched k = false → t k = s k) (h : w.dirty = false → P s) :
    (w.touch touched).dirty = false → P t := by
  intro hclean
  obtain ⟨hw, heq⟩ := eq_of_clean hframe hclean
  exact hP s t (fun k hk => (heq k hk).symm) (h hw)

end Watch

end Rtace.Lib
