import Mathlib.Data.List.Induction
import Mathlib.Logic.Relation

/-!
# Labelled transition systems

Runs of a labelled step relation, the rule that a property which holds initially and is kept by every
step holds at the end of every run, and linearization: a run in which every step either leaves the
abstract state alone or acts as one abstract operation is the sequence of those operations.
-/

namespace Rtace.Lib

variable {S L : Type*}

/-- `Run step s ls t`: performing the labels `ls` in order leads from `s` to `t`. -/
inductive Run (step : S → L → S → Prop) (s : S) : List L → S → Prop
  | nil : Run step s [] s
  | snoc {ls : List L} {t u : S} {l : L} : Run step s ls t → step t l u → Run step s (ls ++ [l]) u

namespace Run

variable {step step' : S → L → S → Prop} {s t u : S} {ls ls' : List L}

/-- An inductive invariant holds at the end of every run. -/
theorem invariant {I : S → Prop} (h : Run step s ls t) (h₀ : I s)
    (hstep : ∀ a l b, I a → step a l b → I b) : I t := by
  induction h with
  | nil => exact h₀
  | snoc _ hl ih => exact hstep _ _ _ ih hl

/-- An inductive invariant also bounds what the labels of a run can be. -/
theorem invariant_labels {I : S → Prop} {P : L → Prop} (h : Run step s ls t) (h₀ : I s)
    (hstep : ∀ a l b, I a → step a l b → I b ∧ P l) : I t ∧ ∀ l ∈ ls, P l := by
  induction h with
  | nil => exact ⟨h₀, by simp⟩
  | snoc _ hl ih =>
      obtain ⟨hI, hP⟩ := ih
      obtain ⟨hI', hl'⟩ := hstep _ _ _ hI hl
      refine ⟨hI', fun l hmem => ?_⟩
      rcases List.mem_append.mp hmem with hmem | hmem
      · exact hP l hmem
      · rwa [List.mem_singleton.mp hmem]

/-- An invariant may also speak about what has happened so far. -/
theorem history {I : List L → S → Prop} (h : Run step s ls t) (h₀ : I [] s)
    (hstep : ∀ ls a l b, I ls a → step a l b → I (ls ++ [l]) b) : I ls t := by
  induction h with
  | nil => exact h₀
  | snoc _ hl ih => exact hstep _ _ _ _ ih hl

/-- A run of one relation is a run of any relation that allows its steps. -/
theorem mono (h : Run step s ls t) (hsub : ∀ a l b, step a l b → step' a l b) :
    Run step' s ls t := by
  induction h with
  | nil => exact .nil
  | snoc _ hl ih => exact .snoc ih (hsub _ _ _ hl)

/-- Steps may be seen through a map of the labels. -/
theorem map {M : Type*} {step' : S → M → S → Prop} {f : L → M} (h : Run step s ls t)
    (hstep : ∀ a l b, step a l b → step' a (f l) b) : Run step' s (ls.map f) t := by
  induction h with
  | nil => exact .nil
  | snoc _ hl ih =>
      rw [List.map_append]
      exact .snoc ih (hstep _ _ _ hl)

theorem append (h : Run step s ls t) (h' : Run step t ls' u) : Run step s (ls ++ ls') u := by
  induction h' with
  | nil => simpa using h
  | snoc _ hl ih =>
      rw [← List.append_assoc]
      exact .snoc ih hl

/-- The last step of a run. -/
theorem last {l : L} (h : Run step s (ls ++ [l]) u) : ∃ t, Run step s ls t ∧ step t l u := by
  generalize hlabels : ls ++ [l] = labels at h
  cases h with
  | nil => simp at hlabels
  | snoc hrun hl =>
      obtain ⟨rfl, hlast⟩ := List.append_inj' hlabels rfl
      obtain rfl := List.singleton_inj.mp hlast
      exact ⟨_, hrun, hl⟩

/-- A run passes through every one of its labels. -/
theorem split {l : L} (h : Run step s (ls ++ l :: ls') u) :
    ∃ t t', Run step s ls t ∧ step t l t' ∧ Run step t' ls' u := by
  induction ls' using List.reverseRecOn generalizing u with
  | nil =>
      obtain ⟨t, hrun, hl⟩ := h.last
      exact ⟨t, u, hrun, hl, .nil⟩
  | append_singleton ls' l' ih =>
      rw [← List.cons_append, ← List.append_assoc] at h
      obtain ⟨v, hrun, hl⟩ := h.last
      obtain ⟨t, t', hbefore, hat, hafter⟩ := ih hrun
      exact ⟨t, t', hbefore, hat, .snoc hafter hl⟩

/-- What a run has changed was given its last value by one of its steps. -/
theorem last_change {X : Type*} (f : S → X) (h : Run step s ls t) (hne : f t ≠ f s) :
    ∃ before l after a b, ls = before ++ l :: after ∧ Run step s before a ∧ step a l b ∧ Run step b after t ∧
      f a ≠ f b ∧ f b = f t := by
  induction h with
  | nil => exact absurd rfl hne
  | @snoc ls a b l hrun hl ih =>
      by_cases hab : f a = f b
      · obtain ⟨before, l', after, c, d, rfl, hbefore, hat, hafter, hchange, hlast⟩ := ih (hab ▸ hne)
        exact ⟨before, l', after ++ [l], c, d, by simp, hbefore, hat, .snoc hafter hl, hchange, hlast.trans hab⟩
      · exact ⟨ls, l, [], a, b, rfl, hrun, hl, .nil, hab, rfl⟩

/-- Steps that change nothing can be left out of a run. -/
theorem erase {p : L → Bool} (h : Run step s ls t) (hquiet : ∀ a l b, step a l b → p l = false → b = a) :
    Run step s (ls.filter p) t := by
  induction h with
  | nil => exact .nil
  | @snoc ls a b l hrun hl ih =>
      rw [List.filter_append, List.filter_cons, List.filter_nil]
      cases hp : p l with
      | true => exact .snoc ih hl
      | false =>
          rw [hquiet a l b hl hp]
          simpa using ih

theorem single {l : L} (h : step s l t) : Run step s [l] t :=
  Run.snoc Run.nil h

theorem cons {l : L} (h : step s l t) (h' : Run step t ls u) : Run step s (l :: ls) u :=
  (single h).append h'

end Run

/-! ## Linearization -/

variable {A E R : Type*}

/-- Perform operations one at a time and collect their replies. -/
def replay (perform : A → E → R × A) : A → List E → List R × A
  | a, [] => ([], a)
  | a, e :: es => ((perform a e).1 :: (replay perform (perform a e).2 es).1, (replay perform (perform a e).2 es).2)

theorem replay_append (perform : A → E → R × A) (a : A) (es es' : List E) :
    replay perform a (es ++ es')
      = ((replay perform a es).1 ++ (replay perform (replay perform a es).2 es').1,
          (replay perform (replay perform a es).2 es').2) := by
  induction es generalizing a with
  | nil => rfl
  | cons e es ih =>
      simp only [List.cons_append, replay]
      rw [ih]

/-- If every step acts on the abstract state as the operation at its linearization point, with the reply
recorded there, or not at all when it has none, then a run is the sequence of its points. -/
theorem Run.linearize {step : S → L → S → Prop} {s t : S} {ls : List L} {I : S → Prop} {abs : S → A}
    {point : L → Option (E × R)} {perform : A → E → R × A} (h : Run step s ls t) (h₀ : I s)
    (hstep : ∀ a l b, I a → step a l b → I b)
    (hpoint : ∀ a l b e r, I a → step a l b → point l = some (e, r) → perform (abs a) e = (r, abs b))
    (hother : ∀ a l b, I a → step a l b → point l = none → abs b = abs a) :
    replay perform (abs s) ((ls.filterMap point).map Prod.fst) = ((ls.filterMap point).map Prod.snd, abs t) := by
  induction h with
  | nil => rfl
  | @snoc ls a b l hrun hl ih =>
      have hI : I a := hrun.invariant h₀ hstep
      rw [List.filterMap_append, List.map_append, List.map_append, replay_append, ih]
      cases hp : point l with
      | none => simp [hp, replay, hother a l b hI hl hp]
      | some er =>
          obtain ⟨e, r⟩ := er
          simp [hp, replay, hpoint a l b e r hI hl hp]

/-! ## Streams -/

/-- Every element has the property after those before it. -/
def AllAfter {α : Type*} (P : List α → α → Prop) (before : List α) : List α → Prop
  | [] => True
  | e :: es => P before e ∧ AllAfter P (before ++ [e]) es

section

variable {α : Type*} {P : List α → α → Prop} {before es es' : List α}

theorem AllAfter.append (h : AllAfter P before es) (h' : AllAfter P (before ++ es) es') :
    AllAfter P before (es ++ es') := by
  induction es generalizing before with
  | nil => simpa using h'
  | cons e es ih =>
      refine ⟨h.1, ih h.2 ?_⟩
      rwa [List.append_assoc]

theorem AllAfter.of_forall (h : ∀ before, ∀ e ∈ es, P before e) : AllAfter P before es := by
  induction es generalizing before with
  | nil => trivial
  | cons e es ih => exact ⟨h before e (by simp), ih fun before x hx => h before x (by simp [hx])⟩

theorem AllAfter.split {pre post : List α} {e : α} (h : AllAfter P before (pre ++ e :: post)) :
    P (before ++ pre) e := by
  induction pre generalizing before with
  | nil => simpa using h.1
  | cons x pre ih => simpa using ih h.2

end

end Rtace.Lib
