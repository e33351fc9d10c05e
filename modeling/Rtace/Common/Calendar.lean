import Mathlib.Data.Nat.Find
import Mathlib.Order.Monotone.Basic
import Rtace.Common.Models

/-!
# The civil date of a day

Days are numbered from January 1 of year 1, which is day 1. A date is found back from its number by
looking for the year and then the month in which it falls; the starts of both grow strictly, so there
is only one.
-/

namespace Rtace

/-- The number of a civil day. -/
def ordinal (year month day : ℕ) : ℕ := daysBeforeYear year + daysBeforeMonth year month + day

/-- The year in which day `n` falls. -/
def yearOf (n : ℕ) : ℕ := Nat.findGreatest (fun y => daysBeforeYear y < n) 9999

/-- The month in which day `n` of a year falls. -/
def monthOf (year n : ℕ) : ℕ := Nat.findGreatest (fun m => daysBeforeMonth year m < n) 12

/-- `n` has a place in a sequence of starts. -/
theorem findGreatest_place {f : ℕ → ℕ} {n bound : ℕ} (hbound : 1 ≤ bound) (hstart : f 1 < n)
    (hend : n ≤ f (bound + 1)) :
    let i := Nat.findGreatest (fun j => f j < n) bound
    1 ≤ i ∧ i ≤ bound ∧ f i < n ∧ n ≤ f (i + 1) := by
  intro i
  have hle : i ≤ bound := Nat.findGreatest_le bound
  refine ⟨Nat.le_findGreatest hbound hstart, hle, Nat.findGreatest_spec (P := fun j => f j < n) hbound hstart, ?_⟩
  rcases Nat.lt_or_eq_of_le hle with hlt | heq
  · exact not_lt.mp (Nat.findGreatest_is_greatest (P := fun j => f j < n) (Nat.lt_succ_self i) hlt)
  · rwa [heq]

/-- In a growing sequence of starts it has only one. -/
theorem findGreatest_eq_of_mono {f : ℕ → ℕ} (hf : Monotone f) {i n bound : ℕ} (hi : i ≤ bound) (hstart : f i < n)
    (hend : n ≤ f (i + 1)) : Nat.findGreatest (fun j => f j < n) bound = i := by
  refine Nat.findGreatest_eq_iff.mpr ⟨hi, fun _ => hstart, fun j hij _ hj => ?_⟩
  have hle : f (i + 1) ≤ f j := hf hij
  omega

theorem daysBeforeYear_succ {y : ℕ} (hy : 1 ≤ y) :
    daysBeforeYear (y + 1) = daysBeforeYear y + if isLeap y then 366 else 365 := by
  obtain ⟨k, rfl⟩ : ∃ k, y = k + 1 := ⟨y - 1, by omega⟩
  have h100 : 100 ∣ k + 1 → 4 ∣ k + 1 := (Nat.dvd_trans (by decide) ·)
  have h400 : 400 ∣ k + 1 → 100 ∣ k + 1 := (Nat.dvd_trans (by decide) ·)
  have hle : k / 100 ≤ k / 4 := Nat.div_le_div_left (by decide) (by decide)
  simp only [daysBeforeYear, isLeap, Nat.add_sub_cancel, Nat.succ_div, ← Nat.dvd_iff_mod_eq_zero, Ne,
    decide_eq_true_eq]
  by_cases hfour : 4 ∣ k + 1 <;> by_cases hcentury : 100 ∣ k + 1 <;> by_cases hcycle : 400 ∣ k + 1 <;>
    simp only [hfour, hcentury, hcycle, if_true, if_false, not_true, not_false_eq_true, and_true, and_false,
      or_true, or_false] at h100 h400 ⊢ <;> omega

theorem daysBeforeYear_mono : Monotone daysBeforeYear := by
  refine monotone_nat_of_le_succ fun y => ?_
  rcases Nat.eq_zero_or_pos y with rfl | hy
  · exact le_rfl
  · rw [daysBeforeYear_succ hy]
    exact Nat.le_add_right _ _

theorem daysBeforeMonth_succ (year : ℕ) {m : ℕ} (hm : 1 ≤ m) :
    daysBeforeMonth year (m + 1) = daysBeforeMonth year m + daysInMonth year m := by
  obtain ⟨k, rfl⟩ : ∃ k, m = k + 1 := ⟨m - 1, by omega⟩
  simp [daysBeforeMonth, List.range_succ]

theorem daysBeforeMonth_mono (year : ℕ) : Monotone (daysBeforeMonth year) := by
  refine monotone_nat_of_le_succ fun m => ?_
  rcases Nat.eq_zero_or_pos m with rfl | hm
  · exact le_rfl
  · rw [daysBeforeMonth_succ year hm]
    exact Nat.le_add_right _ _

/-- The twelve months make up the year. -/
theorem daysBeforeMonth_thirteen (year : ℕ) :
    daysBeforeMonth year 13 = if isLeap year then 366 else 365 := by
  simp only [daysBeforeMonth, daysInMonth]
  cases isLeap year <;> rfl

/-- A day has a date. -/
theorem ordinal_date {n : ℕ} (hn : 1 ≤ n) (hmax : n ≤ 3652059) :
    let year := yearOf n
    let month := monthOf year (n - daysBeforeYear year)
    let day := n - daysBeforeYear year - daysBeforeMonth year month
    (1 ≤ year ∧ year ≤ 9999 ∧ 1 ≤ month ∧ month ≤ 12 ∧ 1 ≤ day ∧ day ≤ daysInMonth year month) ∧
      ordinal year month day = n := by
  intro year month day
  obtain ⟨hy, hy', hstart, hend⟩ : 1 ≤ year ∧ year ≤ 9999 ∧ daysBeforeYear year < n ∧
      n ≤ daysBeforeYear (year + 1) := findGreatest_place (by decide) hn hmax
  rw [daysBeforeYear_succ hy, ← daysBeforeMonth_thirteen] at hend
  have hfirst : daysBeforeMonth year 1 = 0 := rfl
  obtain ⟨hm, hm', hbegin, hstop⟩ : 1 ≤ month ∧ month ≤ 12 ∧ daysBeforeMonth year month < n - daysBeforeYear year ∧
      n - daysBeforeYear year ≤ daysBeforeMonth year (month + 1) :=
    findGreatest_place (by decide) (by omega) (show _ ≤ daysBeforeMonth year 13 by omega)
  rw [daysBeforeMonth_succ year hm] at hstop
  refine ⟨⟨hy, hy', hm, hm', ?_, ?_⟩, ?_⟩
  · exact Nat.le_sub_of_add_le (by omega)
  · exact Nat.sub_le_of_le_add (by omega)
  · change daysBeforeYear year + daysBeforeMonth year month + (n - daysBeforeYear year - daysBeforeMonth year month) = n
    omega

/-- A date is found back from its number. -/
theorem date_ordinal {year month day : ℕ} (hy : 1 ≤ year ∧ year ≤ 9999) (hm : 1 ≤ month ∧ month ≤ 12)
    (hd : 1 ≤ day ∧ day ≤ daysInMonth year month) :
    yearOf (ordinal year month day) = year ∧
      monthOf year (ordinal year month day - daysBeforeYear year) = month ∧
      ordinal year month day - daysBeforeYear year - daysBeforeMonth year month = day := by
  have hmonth : daysBeforeMonth year month + daysInMonth year month ≤ daysBeforeMonth year 13 := by
    rw [← daysBeforeMonth_succ year hm.1]
    exact daysBeforeMonth_mono year (by omega)
  refine ⟨findGreatest_eq_of_mono daysBeforeYear_mono hy.2 ?_ ?_, findGreatest_eq_of_mono (daysBeforeMonth_mono year)
    hm.2 ?_ ?_, ?_⟩
  · unfold ordinal
    omega
  · rw [daysBeforeYear_succ hy.1, ← daysBeforeMonth_thirteen]
    unfold ordinal
    omega
  · unfold ordinal
    omega
  · rw [daysBeforeMonth_succ year hm.1]
    unfold ordinal
    omega
  · unfold ordinal
    omega

end Rtace
