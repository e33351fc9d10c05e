import Mathlib.Data.List.Basic

/-!
# Fields joined by a separator

Five fields are joined by a separator that three of them, the first, the third and the last, may contain;
the second and the fourth are of a recognisable form. The joined text can be read in one way only exactly
if no part of the free fields stands where one of the other two could be read.
-/

namespace Rtace.Lib

section Segments

variable {σ : Type*}

theorem mem_tail_iff {s : σ} {l : List σ} : s ∈ l.tail ↔ ∃ x y, x ≠ [] ∧ l = x ++ s :: y := by
  constructor
  · intro h
    cases l with
    | nil => exact absurd h List.not_mem_nil
    | cons b l =>
        obtain ⟨x, y, hl⟩ := List.append_of_mem h
        exact ⟨b :: x, y, List.cons_ne_nil b x, congrArg (b :: ·) hl⟩
  · rintro ⟨x, y, hx, rfl⟩
    cases x with
    | nil => exact absurd rfl hx
    | cons b x => exact List.mem_append_right x List.mem_cons_self

theorem mem_dropLast_iff {s : σ} {l : List σ} : s ∈ l.dropLast ↔ ∃ x y, y ≠ [] ∧ l = x ++ s :: y := by
  constructor
  · intro h
    have hne : l ≠ [] := by
      rintro rfl
      exact absurd h List.not_mem_nil
    obtain ⟨x, y, hl⟩ := List.append_of_mem h
    refine ⟨x, y ++ [l.getLast hne], by simp, ?_⟩
    calc l = l.dropLast ++ [l.getLast hne] := (List.dropLast_append_getLast hne).symm
      _ = x ++ s :: (y ++ [l.getLast hne]) := by rw [hl, List.append_assoc, List.cons_append]
  · rintro ⟨x, y, hy, rfl⟩
    rw [List.dropLast_append_cons, List.dropLast_cons_of_ne_nil hy]
    exact List.mem_append_right x List.mem_cons_self

/-- The segments of the free fields leave no choice: none of them can be read as the second field (`P`) or
the fourth (`Q`). -/
structure Unmistakable (P Q : σ → Prop) (u m l : List σ) : Prop where
  first : ∀ s ∈ u.tail, ¬ P s
  before : ∀ s ∈ m.dropLast, ¬ P s
  after : ∀ s ∈ m.tail, ¬ Q s
  last : ∀ s ∈ l.dropLast, ¬ Q s

/-- Two readings of one list of segments that put the second field at one place. -/
theorem Unmistakable.fourth {P Q : σ → Prop} {u m l m' l' : List σ} {t t' : σ} (h : Unmistakable P Q u m l)
    (hm' : m' ≠ []) (hl' : l' ≠ []) (ht' : Q t') (heq : m' ++ t' :: l' = m ++ t :: l) :
    m' = m ∧ t' = t ∧ l' = l := by
  rcases List.append_eq_append_iff.mp heq with ⟨c, hm, hc⟩ | ⟨c, hm, hc⟩
  · cases c with
    | nil =>
        rw [List.append_nil] at hm
        obtain ⟨ht, hl⟩ := List.cons_eq_cons.mp hc
        exact ⟨hm.symm, ht, hl⟩
    | cons b c =>
        obtain ⟨rfl, -⟩ := List.cons_eq_cons.mp hc
        exact absurd ht' (h.after t' (mem_tail_iff.mpr ⟨m', c, hm', hm⟩))
  · cases c with
    | nil =>
        rw [List.append_nil] at hm
        obtain ⟨ht, hl⟩ := List.cons_eq_cons.mp hc
        exact ⟨hm, ht.symm, hl.symm⟩
    | cons b c =>
        obtain ⟨-, hl⟩ := List.cons_eq_cons.mp hc
        exact absurd ht' (h.last t' (mem_dropLast_iff.mpr ⟨c, l', hl', hl⟩))

/-- A reading that puts the second field further back finds a segment that it must not find. -/
theorem Unmistakable.not_later {P Q : σ → Prop} {u m l c m' l' : List σ} {a' t t' : σ} (h : Unmistakable P Q u m l)
    (ht : ¬ P t) (hm' : m' ≠ []) (hl' : l' ≠ []) (ha' : P a') (ht' : Q t') :
    m ++ t :: l ≠ c ++ a' :: (m' ++ t' :: l') := by
  intro heq
  rcases List.append_eq_append_iff.mp heq with ⟨e, -, he⟩ | ⟨e, hm, he⟩
  · cases e with
    | nil =>
        obtain ⟨rfl, -⟩ := List.cons_eq_cons.mp he
        exact ht ha'
    | cons b e =>
        -- both fields are read in the last one
        have hl : l = e ++ a' :: (m' ++ t' :: l') := (List.cons_eq_cons.mp he).2
        refine h.last t' (mem_dropLast_iff.mpr ⟨e ++ a' :: m', l', hl', ?_⟩) ht'
        rw [hl, List.append_assoc, List.cons_append]
  · cases e with
    | nil =>
        obtain ⟨rfl, -⟩ := List.cons_eq_cons.mp he
        exact ht ha'
    | cons b e =>
        obtain ⟨rfl, hrest⟩ := List.cons_eq_cons.mp he
        cases e with
        | nil =>
            -- the second field is read at the end of the third, so the fourth in the last one
            obtain ⟨b, m'', rfl⟩ := List.exists_cons_of_ne_nil hm'
            have hl : m'' ++ t' :: l' = l := (List.cons_eq_cons.mp hrest).2
            exact h.last t' (mem_dropLast_iff.mpr ⟨m'', l', hl', hl.symm⟩) ht'
        | cons b' e => exact h.before a' (mem_dropLast_iff.mpr ⟨c, b' :: e, List.cons_ne_nil b' e, hm⟩) ha'

/-- Segments that leave no choice are read in one way only. -/
theorem Unmistakable.unique {P Q : σ → Prop} {u m l u' m' l' : List σ} {a t a' t' : σ} (h : Unmistakable P Q u m l)
    (ht : ¬ P t) (hu' : u' ≠ []) (hm' : m' ≠ []) (hl' : l' ≠ []) (ha' : P a') (ht' : Q t')
    (heq : u' ++ a' :: (m' ++ t' :: l') = u ++ a :: (m ++ t :: l)) :
    u' = u ∧ a' = a ∧ m' = m ∧ t' = t ∧ l' = l := by
  rcases List.append_eq_append_iff.mp heq with ⟨c, hu, hc⟩ | ⟨c, hu, hc⟩
  · cases c with
    | nil =>
        rw [List.append_nil] at hu
        obtain ⟨ha, hrest⟩ := List.cons_eq_cons.mp hc
        exact ⟨hu.symm, ha, h.fourth hm' hl' ht' hrest⟩
    | cons b c =>
        obtain ⟨rfl, -⟩ := List.cons_eq_cons.mp hc
        exact absurd ha' (h.first a' (mem_tail_iff.mpr ⟨u', c, hu', hu⟩))
  · cases c with
    | nil =>
        rw [List.append_nil] at hu
        obtain ⟨ha, hrest⟩ := List.cons_eq_cons.mp hc
        exact ⟨hu, ha.symm, h.fourth hm' hl' ht' hrest.symm⟩
    | cons b c =>
        obtain ⟨-, hrest⟩ := List.cons_eq_cons.mp hc
        exact absurd hrest (h.not_later ht hm' hl' ha' ht')

/-- A segment that leaves a choice gives another reading. -/
theorem exists_other_reading {P Q : σ → Prop} {u m l : List σ} {a t : σ} (hu : u ≠ []) (hm : m ≠ []) (hl : l ≠ [])
    (ha : P a) (ht : Q t) (h : ¬ Unmistakable P Q u m l) :
    ∃ u' a' m' t' l', (u' ≠ [] ∧ m' ≠ [] ∧ l' ≠ []) ∧ P a' ∧ Q t' ∧
      u' ++ a' :: (m' ++ t' :: l') = u ++ a :: (m ++ t :: l) ∧ (u' ≠ u ∨ m' ≠ m) := by
  by_contra hnone
  refine h ⟨fun s hs hP => ?_, fun s hs hP => ?_, fun s hs hQ => ?_, fun s hs hQ => ?_⟩
  · obtain ⟨x, y, hx, rfl⟩ := mem_tail_iff.mp hs
    exact hnone ⟨x, s, y ++ a :: m, t, l, ⟨hx, by simp, hl⟩, hP, ht, by simp, Or.inl (by simp)⟩
  · obtain ⟨x, y, hy, rfl⟩ := mem_dropLast_iff.mp hs
    exact hnone ⟨u ++ a :: x, s, y, t, l, ⟨by simp, hy, hl⟩, hP, ht, by simp, Or.inl (by simp)⟩
  · obtain ⟨x, y, hx, rfl⟩ := mem_tail_iff.mp hs
    exact hnone ⟨u, a, x, s, y ++ t :: l, ⟨hu, hx, by simp⟩, ha, hQ, by simp, Or.inr (by simp)⟩
  · obtain ⟨x, y, hy, rfl⟩ := mem_dropLast_iff.mp hs
    exact hnone ⟨u, a, m ++ t :: x, s, y, ⟨hu, by simp, hy⟩, ha, hQ, by simp, Or.inr (by simp)⟩

end Segments

/-! ## Texts -/

section Texts

variable {α : Type*} [DecidableEq α] {sep : α} {P Q : List α → Prop}

/-- Five fields with separators between them. -/
def joined (sep : α) (u a m t l : List α) : List α := u ++ sep :: (a ++ sep :: (m ++ sep :: (t ++ sep :: l)))

theorem splitOn_joined {u a m t l : List α} (ha : sep ∉ a) (ht : sep ∉ t) :
    (joined sep u a m t l).splitOn sep = u.splitOn sep ++ a :: (m.splitOn sep ++ t :: l.splitOn sep) := by
  simp only [joined, List.splitOn_append_cons_self, List.splitOn_eq_singleton ha, List.splitOn_eq_singleton ht,
    List.singleton_append]

theorem splitOn_injective (sep : α) : Function.Injective (List.splitOn sep) := by
  intro x y h
  have hx : [sep].intercalate (x.splitOn sep) = x := List.intercalate_splitOn sep
  rw [← hx, h, List.intercalate_splitOn]

/-- No segment holds the separator. -/
theorem notMem_of_mem_splitOn {xs s : List α} (h : s ∈ xs.splitOn sep) : sep ∉ s := by
  induction xs generalizing s with
  | nil =>
      rw [List.splitOn_nil, List.mem_singleton] at h
      simp [h]
  | cons x xs ih =>
      rw [List.splitOn_cons_eq_if_modifyHead] at h
      split at h
      · rcases List.mem_cons.mp h with rfl | h
        · exact List.not_mem_nil
        · exact ih h
      · rename_i hx
        obtain ⟨hd, tl, hsplit⟩ := List.exists_cons_of_ne_nil (List.splitOn_ne_nil sep xs)
        rw [hsplit] at h ih
        rcases List.mem_cons.mp h with rfl | h
        · rw [List.mem_cons, not_or]
          exact ⟨fun heq => hx (by simp [heq]), ih List.mem_cons_self⟩
        · exact ih (List.mem_cons_of_mem _ h)

/-- The joined text is read in one way only exactly if the segments of its free fields leave no choice. -/
theorem joined_unique_iff {u a m t l : List α} (hP : ∀ x, P x → sep ∉ x) (hQ : ∀ x, Q x → sep ∉ x) (ha : P a)
    (ht : Q t) (hne : ¬ P t) :
    (∀ u' a' m' t' l', P a' → Q t' → joined sep u' a' m' t' l' = joined sep u a m t l →
        u' = u ∧ a' = a ∧ m' = m ∧ t' = t ∧ l' = l) ↔
      Unmistakable P Q (u.splitOn sep) (m.splitOn sep) (l.splitOn sep) := by
  constructor
  · intro h
    by_contra hchoice
    obtain ⟨u', a', m', t', l', ⟨hu', hm', hl'⟩, ha', ht', heq, hother⟩ := exists_other_reading
      (List.splitOn_ne_nil sep u) (List.splitOn_ne_nil sep m) (List.splitOn_ne_nil sep l) ha ht hchoice
    -- the segments of the other reading are segments of the text, so they can be joined again
    have hclean : ∀ s ∈ u' ++ a' :: (m' ++ t' :: l'), sep ∉ s := by
      intro s hs
      rw [heq, ← splitOn_joined (hP a ha) (hQ t ht)] at hs
      exact notMem_of_mem_splitOn hs
    have hsplit : ∀ x : List (List α), x ≠ [] → (∀ s ∈ x, s ∈ u' ++ a' :: (m' ++ t' :: l')) →
        ([sep].intercalate x).splitOn sep = x :=
      fun x hx hsub => List.splitOn_intercalate sep (fun s hs => hclean s (hsub s hs)) hx
    have hu := hsplit u' hu' (by simp +contextual)
    have hm := hsplit m' hm' (by simp +contextual)
    have hl := hsplit l' hl' (by simp +contextual)
    have hsame : joined sep ([sep].intercalate u') a' ([sep].intercalate m') t' ([sep].intercalate l') =
        joined sep u a m t l := by
      apply splitOn_injective sep
      rw [splitOn_joined (hP a' ha') (hQ t' ht'), splitOn_joined (hP a ha) (hQ t ht), hu, hm, hl, heq]
    obtain ⟨hu₀, -, hm₀, -, -⟩ := h _ _ _ _ _ ha' ht' hsame
    rw [hu₀] at hu
    rw [hm₀] at hm
    exact hother.elim (fun hne => hne hu.symm) fun hne => hne hm.symm
  · intro h u' a' m' t' l' ha' ht' heq
    have hsplit := congrArg (List.splitOn sep) heq
    rw [splitOn_joined (hP a' ha') (hQ t' ht'), splitOn_joined (hP a ha) (hQ t ht)] at hsplit
    obtain ⟨hu, ha, hm, ht, hl⟩ := h.unique hne (List.splitOn_ne_nil sep u') (List.splitOn_ne_nil sep m')
      (List.splitOn_ne_nil sep l') ha' ht' hsplit
    exact ⟨splitOn_injective sep hu, ha, splitOn_injective sep hm, ht, splitOn_injective sep hl⟩

end Texts

end Rtace.Lib
