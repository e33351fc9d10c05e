import Mathlib.Data.Set.Lattice
import Mathlib.Order.CompletePartialOrder

/-!
# Programs over a keyed store and their footprints

A store is a function from keys to cells, and a program over it is a `StateM` action. A program has
footprint `S` when it reads and writes only keys of `S`. Footprints compose, and two programs with
disjoint footprints commute; this is the frame reasoning behind every reordering argument of the
development.
-/

namespace Rtace.Lib

universe u

variable {K V σ α β : Type u}

/-- Running a sequence of two programs. -/
@[simp] theorem bind_apply (m : StateM σ α) (f : α → StateM σ β) (s : σ) :
    (m >>= f) s = f (m s).1 (m s).2 := rfl

/-- Running a constant program. -/
@[simp] theorem pure_apply (a : α) (s : σ) : (pure a : StateM σ α) s = (a, s) := rfl

/-- Run a list of programs in order and collect their replies, as a pipeline does. -/
def runAll : List (StateM σ α) → StateM σ (List α)
  | [] => pure []
  | m :: ms => do
      let a ← m
      let as ← runAll ms
      pure (a :: as)

/-- The program that rewrites the cell of one key. -/
def atKey [DecidableEq K] (k : K) (f : V → α × V) : StateM (K → V) α :=
  fun s => ((f (s k)).1, Function.update s k (f (s k)).2)

/-- `m` reads and writes only the keys of `S`. -/
structure Footprint (S : Set K) (m : StateM (K → V) α) : Prop where
  /-- Keys outside the footprint keep their cells. -/
  frame : ∀ s k, k ∉ S → (m s).2 k = s k
  /-- The reply and the cells of the footprint depend only on the footprint. -/
  congr : ∀ s t, (∀ k ∈ S, s k = t k) → (m s).1 = (m t).1 ∧ ∀ k ∈ S, (m s).2 k = (m t).2 k

namespace Footprint

variable {S T : Set K} {m : StateM (K → V) α} {n : StateM (K → V) β}

theorem pure (S : Set K) (a : α) : Footprint S (pure a : StateM (K → V) α) where
  frame _ _ _ := rfl
  congr _ _ h := ⟨rfl, h⟩

theorem atKey [DecidableEq K] (k : K) (f : V → α × V) : Footprint {k} (atKey k f) where
  frame s j hj := Function.update_of_ne hj _ _
  congr s t h := by
    have hk : s k = t k := h k rfl
    simp only [Lib.atKey, hk, Set.mem_singleton_iff, forall_eq, Function.update_self, and_self]

/-- A footprint may be enlarged. -/
theorem mono (hm : Footprint S m) (h : S ⊆ T) : Footprint T m where
  frame s k hk := hm.frame s k (fun hS => hk (h hS))
  congr s t hst := by
    obtain ⟨hfst, hsnd⟩ := hm.congr s t (fun k hk => hst k (h hk))
    refine ⟨hfst, fun k hk => ?_⟩
    by_cases hS : k ∈ S
    · exact hsnd k hS
    · rw [hm.frame s k hS, hm.frame t k hS]
      exact hst k hk

/-- The second program need only stay in the footprint on replies that the first one gives. -/
theorem bind_reply {f : α → StateM (K → V) β} (hm : Footprint S m) (hf : ∀ s, Footprint S (f (m s).1)) :
    Footprint S (m >>= f) where
  frame s k hk := by
    rw [bind_apply, (hf s).frame _ k hk, hm.frame s k hk]
  congr s t hst := by
    obtain ⟨hfst, hsnd⟩ := hm.congr s t hst
    rw [bind_apply, bind_apply, hfst]
    exact (hf t).congr _ _ hsnd

theorem bind {f : α → StateM (K → V) β} (hm : Footprint S m) (hf : ∀ a, Footprint S (f a)) :
    Footprint S (m >>= f) :=
  hm.bind_reply fun s => hf (m s).1

theorem runAll {ms : List (StateM (K → V) α)} (h : ∀ m ∈ ms, Footprint S m) :
    Footprint S (runAll ms) := by
  induction ms with
  | nil => exact pure S []
  | cons m ms ih =>
      have hm : Footprint S m := h m (by simp)
      have hms : Footprint S (Lib.runAll ms) := ih fun x hx => h x (by simp [hx])
      exact hm.bind fun a => hms.bind fun as => pure S _

/-- A program does not see what another program with a disjoint footprint wrote. -/
theorem reply_of_disjoint (hm : Footprint S m) (hn : Footprint T n) (hd : Disjoint S T)
    (s : K → V) : (n (m s).2).1 = (n s).1 :=
  (hn.congr _ _ fun k hk => hm.frame s k (Set.disjoint_right.mp hd hk)).1

/-- Two programs with disjoint footprints leave the same store in either order. -/
theorem comm (hm : Footprint S m) (hn : Footprint T n) (hd : Disjoint S T) (s : K → V) :
    (n (m s).2).2 = (m (n s).2).2 := by
  funext k
  by_cases hS : k ∈ S
  · have hT : k ∉ T := Set.disjoint_left.mp hd hS
    rw [hn.frame _ k hT]
    exact ((hm.congr _ _ fun j hj => hn.frame s j (Set.disjoint_left.mp hd hj)).2 k hS).symm
  · rw [hm.frame _ k hS]
    by_cases hT : k ∈ T
    · exact (hn.congr _ _ fun j hj => hm.frame s j (Set.disjoint_right.mp hd hj)).2 k hT
    · rw [hn.frame _ k hT, hn.frame s k hT, hm.frame s k hS]

end Footprint

/-- A program that only reads its key leaves the store alone. -/
theorem atKey_read [DecidableEq K] (k : K) (f : V → α) (s : K → V) :
    atKey k (fun v => (f v, v)) s = (f (s k), s) := by
  simp only [atKey, Function.update_eq_self]

@[simp] theorem runAll_nil : runAll ([] : List (StateM σ α)) = pure [] := rfl

theorem runAll_cons (m : StateM σ α) (ms : List (StateM σ α)) (s : σ) :
    runAll (m :: ms) s = ((m s).1 :: (runAll ms (m s).2).1, (runAll ms (m s).2).2) := rfl

/-- A pipeline of reads replies for the store it is run on and leaves it alone. -/
theorem runAll_map_read {ι : Type*} (g : ι → StateM σ α) (f : ι → σ → α)
    (h : ∀ i s, g i s = (f i s, s)) (is : List ι) (s : σ) :
    runAll (is.map g) s = (is.map (fun i => f i s), s) := by
  induction is with
  | nil => rfl
  | cons i is ih => rw [List.map_cons, runAll_cons, h, ih, List.map_cons]

/-- A pipeline of two blocks of commands is the two pipelines in turn. -/
theorem runAll_append (ms ns : List (StateM σ α)) (s : σ) :
    runAll (ms ++ ns) s
      = ((runAll ms s).1 ++ (runAll ns (runAll ms s).2).1, (runAll ns (runAll ms s).2).2) := by
  induction ms generalizing s with
  | nil => rfl
  | cons m ms ih =>
      rw [List.cons_append, runAll_cons, ih, runAll_cons]
      rfl

/-- A pipeline returns one reply for each command. -/
theorem runAll_length (ms : List (StateM σ α)) (s : σ) :
    (runAll ms s).1.length = ms.length := by
  induction ms generalizing s with
  | nil => rfl
  | cons m ms ih => rw [runAll_cons, List.length_cons, List.length_cons, ih]

end Rtace.Lib
