import Mathlib.Data.List.Basic

/-!
# Readers

A reader takes a value off the front of a text. It reads a printer back if, on every printed value and whatever
comes after it, it finds the value and what comes after it. Readers of the parts of a format are then used one
after another.
-/

namespace Rtace.Lib

/-- Take a value off the front of a text. -/
abbrev Reader (α : Type) := List Char → Option (α × List Char)

namespace Reader

variable {α : Type}

/-- The reader finds what is printed, whatever comes after it. -/
def Reads (read : Reader α) (print : α → List Char) : Prop := ∀ a rest, read (print a ++ rest) = some (a, rest)

/-- A fixed text. -/
def literal (text : List Char) : Reader Unit := fun cs =>
  if text.isPrefixOf cs then some ((), cs.drop text.length) else none

theorem literal_append (text rest : List Char) : literal text (text ++ rest) = some ((), rest) := by
  have hprefix : text.isPrefixOf (text ++ rest) = true := List.isPrefixOf_iff_prefix.mpr (List.prefix_append text rest)
  rw [literal, if_pos hprefix, List.drop_left]

/-- A number in decimal digits. -/
def number : Reader ℕ := fun cs =>
  some (Nat.ofDigitChars 10 (cs.takeWhile Char.isDigit) 0, cs.dropWhile Char.isDigit)

/-- A number ends where no digit follows. -/
theorem number_append (n : ℕ) {rest : List Char} (hrest : ∀ c ∈ rest.head?, c.isDigit = false) :
    number (Nat.toDigits 10 n ++ rest) = some (n, rest) := by
  have hdigits : ∀ c ∈ Nat.toDigits 10 n, c.isDigit = true := fun c hc =>
    Nat.isDigit_of_mem_toDigits (by decide) (by decide) hc
  have htake : rest.takeWhile Char.isDigit = [] ∧ rest.dropWhile Char.isDigit = rest := by
    cases rest with
    | nil => exact ⟨rfl, rfl⟩
    | cons c cs =>
        have hc : c.isDigit = false := hrest c rfl
        simp [hc]
  rw [number, List.takeWhile_append_of_pos hdigits, List.dropWhile_append_of_pos hdigits, htake.1, htake.2,
    List.append_nil, Nat.ofDigitChars_ten_toDigits]

/-- Items up to a closing character. The first argument bounds their number. -/
def closed (item : Reader α) (close : Char) : ℕ → Reader (List α)
  | _, [] | 0, _ => none
  | n + 1, c :: cs =>
      if c = close then some ([], cs)
      else do
        let (a, rest) ← item (c :: cs)
        let (as, rest) ← closed item close n rest
        pure (a :: as, rest)

/-- No item starts like the end. -/
theorem closed_append {item : Reader α} {print : α → List Char} {close : Char} (h : Reads item print)
    (hopen : ∀ a, ∃ c cs, print a = c :: cs ∧ c ≠ close) (as : List α) (rest : List Char) {n : ℕ}
    (hn : as.length < n) : closed item close n (as.flatMap print ++ close :: rest) = some (as, rest) := by
  induction as generalizing n with
  | nil =>
      obtain ⟨n, rfl⟩ := Nat.exists_eq_add_one_of_ne_zero (Nat.ne_zero_of_lt hn)
      simp [closed]
  | cons a as ih =>
      obtain ⟨n, rfl⟩ := Nat.exists_eq_add_one_of_ne_zero (Nat.ne_zero_of_lt hn)
      obtain ⟨c, cs, hprint, hne⟩ := hopen a
      have hitem := h a (as.flatMap print ++ close :: rest)
      rw [hprint, List.cons_append] at hitem
      rw [List.flatMap_cons, List.append_assoc, hprint, List.cons_append, closed, if_neg hne, hitem]
      simp [ih (Nat.lt_of_succ_lt_succ hn)]

end Reader

end Rtace.Lib
