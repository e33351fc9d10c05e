import Mathlib.Data.List.Basic
import Mathlib.Logic.Function.Basic

/-!
# Pairwise related lists

A family of lists is spread when any two entries, of one list or of two, are related. Lists may lose
entries, gain an entry that is related to all others, and hand their entries over to each other.
-/

namespace Rtace.Lib

variable {ι α : Type*} {R : α → α → Prop} {f g : ι → List α}

/-- Any two entries of the lists are related. -/
structure Spread (R : α → α → Prop) (f : ι → List α) : Prop where
  own : ∀ i, (f i).Pairwise R
  across : ∀ i j, i ≠ j → ∀ x ∈ f i, ∀ y ∈ f j, R x y

namespace Spread

theorem nil : Spread R fun _ : ι => [] where
  own _ := List.Pairwise.nil
  across _ _ _ _ hx := absurd hx List.not_mem_nil

/-- Entries may be dropped. -/
theorem sublist (h : Spread R f) (hsub : ∀ i, (g i).Sublist (f i)) : Spread R g where
  own i := (h.own i).sublist (hsub i)
  across i j hij x hx y hy := h.across i j hij x ((hsub i).subset hx) y ((hsub j).subset hy)

variable [DecidableEq ι]

theorem clear (h : Spread R f) (i : ι) : Spread R (Function.update f i []) := by
  refine h.sublist ((Function.forall_update_iff f fun j xs => xs.Sublist (f j)).mpr ⟨?_, fun j _ => ?_⟩)
  · exact List.nil_sublist _
  · exact List.Sublist.refl _

/-- A list takes over the entries of another. -/
theorem move (h : Spread R f) {i j : ι} (hij : i ≠ j) :
    Spread R (Function.update (Function.update f j []) i (f i ++ f j)) where
  own := by
    refine (Function.forall_update_iff _ fun _ => List.Pairwise R).mpr ⟨?_, fun k _ => (h.clear j).own k⟩
    exact List.pairwise_append.mpr ⟨h.own i, h.own j, h.across i j hij⟩
  across k l hkl x hx y hy := by
    have hmem : ∀ m z, z ∈ Function.update (Function.update f j []) i (f i ++ f j) m →
        m ≠ j ∧ (z ∈ f m ∨ m = i ∧ z ∈ f j) := by
      intro m z hz
      rcases eq_or_ne m i with rfl | hmi
      · rw [Function.update_self, List.mem_append] at hz
        exact ⟨hij, hz.imp_right fun h => ⟨rfl, h⟩⟩
      · rw [Function.update_of_ne hmi] at hz
        rcases eq_or_ne m j with rfl | hmj
        · rw [Function.update_self] at hz
          exact absurd hz List.not_mem_nil
        · rw [Function.update_of_ne hmj] at hz
          exact ⟨hmj, Or.inl hz⟩
    obtain ⟨hkj, hx' | ⟨rfl, hx'⟩⟩ := hmem k x hx <;> obtain ⟨hlj, hy' | ⟨rfl, hy'⟩⟩ := hmem l y hy
    · exact h.across k l hkl x hx' y hy'
    · exact h.across k j hkj x hx' y hy'
    · exact h.across j l hlj.symm x hx' y hy'
    · exact absurd rfl hkl

/-- An entry that is related to all others is added to a list. -/
theorem snoc (h : Spread R f) (hsymm : ∀ x y, R x y → R y x) (i : ι) {a : α}
    (ha : ∀ j, ∀ x ∈ f j, R x a) : Spread R (Function.update f i (f i ++ [a])) where
  own := by
    refine (Function.forall_update_iff _ fun _ => List.Pairwise R).mpr ⟨?_, fun j _ => h.own j⟩
    refine List.pairwise_append.mpr ⟨h.own i, List.pairwise_singleton R a, fun x hx y hy => ?_⟩
    rw [List.mem_singleton.mp hy]
    exact ha i x hx
  across j k hjk x hx y hy := by
    have hmem : ∀ l z, z ∈ Function.update f i (f i ++ [a]) l → z ∈ f l ∨ l = i ∧ z = a := by
      intro l z hz
      rcases eq_or_ne l i with rfl | hne
      · rw [Function.update_self, List.mem_append, List.mem_singleton] at hz
        exact hz.imp_right fun h => ⟨rfl, h⟩
      · rw [Function.update_of_ne hne] at hz
        exact Or.inl hz
    rcases hmem j x hx with hx' | ⟨rfl, rfl⟩ <;> rcases hmem k y hy with hy' | ⟨rfl, rfl⟩
    · exact h.across j k hjk x hx' y hy'
    · exact ha j x hx'
    · exact hsymm _ _ (ha k y hy')
    · exact absurd rfl hjk

end Spread

end Rtace.Lib
