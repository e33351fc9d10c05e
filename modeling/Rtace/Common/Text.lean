import Rtace.Common.Models

/-!
# Reading numbers back from their text

The replay payload carries the amount as a decimal text and the timestamp in ISO format. Both determine
the value they print: the fields of a timestamp have fixed widths, and the amount ends in two digits
after its only point.
-/

namespace Rtace

/-! ## Digits -/

theorem padZero_toList (width n : ℕ) : (padZero width n).toList =
    List.replicate (width - (Nat.toDigits 10 n).length) '0' ++ Nat.toDigits 10 n := by
  simp [padZero, toString]

/-- The digits read as a number, zeros in front included. -/
theorem ofDigitChars_padZero (width n : ℕ) : Nat.ofDigitChars 10 (padZero width n).toList 0 = n := by
  rw [padZero_toList, Nat.ofDigitChars_append, Nat.ofDigitChars_replicate_zero, Nat.mul_zero,
    Nat.ofDigitChars_ten_toDigits]

theorem padZero_injective (width : ℕ) : Function.Injective (padZero width) := by
  intro m n h
  rw [← ofDigitChars_padZero width m, h, ofDigitChars_padZero]

theorem length_padZero {width n : ℕ} (hw : 0 < width) (hn : n < 10 ^ width) :
    (padZero width n).toList.length = width := by
  have hlen : (Nat.toDigits 10 n).length ≤ width := (Nat.length_toDigits_le_iff (by decide) hw).mpr hn
  rw [padZero_toList, List.length_append, List.length_replicate]
  omega

theorem isDigit_of_mem_padZero {width n : ℕ} {c : Char} (h : c ∈ (padZero width n).toList) : c.isDigit := by
  rw [padZero_toList] at h
  rcases List.mem_append.mp h with h | h
  · rw [List.eq_of_mem_replicate h]
    decide
  · exact Nat.isDigit_of_mem_toDigits (by decide) (by decide) h

/-- A field of fixed width is read off the front of a text. -/
theorem padZero_append_inj {width m n : ℕ} {s t : String} (hw : 0 < width) (hm : m < 10 ^ width)
    (hn : n < 10 ^ width) (h : padZero width m ++ s = padZero width n ++ t) : m = n ∧ s = t := by
  have hlist := congrArg String.toList h
  rw [String.toList_append, String.toList_append] at hlist
  obtain ⟨hfield, hrest⟩ := List.append_inj hlist (by rw [length_padZero hw hm, length_padZero hw hn])
  exact ⟨padZero_injective width (String.ext_iff.mpr hfield), String.ext_iff.mpr hrest⟩

/-- An optional field after a mark, left out when it is zero, is read off the front of a text that cannot
go on with the mark. -/
theorem optional_append_inj {mark : String} {c : Char} (hmark : mark.toList = [c])
    {width m n : ℕ} {s t : String} (hw : 0 < width) (hm : m < 10 ^ width) (hn : n < 10 ^ width)
    (hs : s.toList.head? ≠ some c) (ht : t.toList.head? ≠ some c)
    (h : (if m = 0 then "" else mark ++ padZero width m) ++ s =
      (if n = 0 then "" else mark ++ padZero width n) ++ t) : m = n ∧ s = t := by
  have hhead : ∀ (k : ℕ) (r : String), (mark ++ padZero width k ++ r).toList.head? = some c := by
    intro k r
    simp [hmark]
  by_cases hm0 : m = 0
  · by_cases hn0 : n = 0
    · simp only [hm0, hn0, if_true, String.empty_append] at h
      exact ⟨hm0.trans hn0.symm, h⟩
    · simp only [hm0, hn0, if_true, if_false, String.empty_append] at h
      exact absurd (h ▸ hhead n t) hs
  · by_cases hn0 : n = 0
    · simp only [hm0, hn0, if_true, if_false, String.empty_append] at h
      exact absurd (h ▸ hhead m s) ht
    · simp only [hm0, hn0, if_false, String.append_assoc, String.append_right_inj] at h
      exact padZero_append_inj hw hm hn h

/-! ## Timestamps -/

namespace Datetime

/-- The sign is read off the front of a text. -/
theorem sign_append_inj {o o' : ℤ} {s t : String}
    (h : (if o < 0 then "-" else "+") ++ s = (if o' < 0 then "-" else "+") ++ t) : (o < 0 ↔ o' < 0) ∧ s = t := by
  have hlist := congrArg String.toList h
  rw [String.toList_append, String.toList_append] at hlist
  split at hlist <;> split at hlist <;> simp_all [String.ext_iff, not_lt]
  omega

/-- The offset is read back from its suffix. -/
theorem offsetText_inj {o o' : ℤ} (ho : -86400 < o ∧ o < 86400) (ho' : -86400 < o' ∧ o' < 86400)
    (h : offsetText o = offsetText o') : o = o' := by
  simp only [offsetText, String.append_assoc] at h
  obtain ⟨hsign, h⟩ := sign_append_inj h
  obtain ⟨hhours, h⟩ := padZero_append_inj (by decide) (by omega) (by omega) h
  rw [String.append_right_inj] at h
  obtain ⟨hminutes, h⟩ := padZero_append_inj (by decide) (by omega) (by omega) h
  have hseconds : o.natAbs % 60 = o'.natAbs % 60 := by
    have hmark : ":".toList = [':'] := rfl
    rw [← String.append_empty (s := ite _ _ _), ← String.append_empty (s := ite (o'.natAbs % 60 = 0) _ _)] at h
    exact (optional_append_inj hmark (by decide) (by omega) (by omega) (by simp) (by simp) h).1
  omega

theorem day_lt (t : Datetime) : t.day < 100 := by
  have hday : t.day ≤ daysInMonth t.year t.month := t.valid.2.2.2.2.2.1
  have hmonth : daysInMonth t.year t.month ≤ 31 := by
    unfold daysInMonth
    split_ifs <;> decide
  omega

/-- The part of `isoformat()` after the seconds. -/
def fractionText (t : Datetime) : String :=
  (if t.microsecond = 0 then "" else "." ++ padZero 6 t.microsecond) ++
    match t.utcoffset with
    | none => ""
    | some o => offsetText o

/-- The fields of fixed width are read off the front of a timestamp. -/
theorem isoformat_fields {t t' : Datetime} (h : t.isoformat = t'.isoformat) :
    (t.year = t'.year ∧ t.month = t'.month ∧ t.day = t'.day ∧ t.hour = t'.hour ∧ t.minute = t'.minute ∧
      t.second = t'.second) ∧ t.fractionText = t'.fractionText := by
  obtain ⟨-, hyear, -, hmonth, -, -, hhour, hminute, hsecond, -⟩ := t.valid
  obtain ⟨-, hyear', -, hmonth', -, -, hhour', hminute', hsecond', -⟩ := t'.valid
  simp only [isoformat, String.append_assoc] at h
  obtain ⟨h₁, h⟩ := padZero_append_inj (by decide) (by omega) (by omega) h
  rw [String.append_right_inj] at h
  obtain ⟨h₂, h⟩ := padZero_append_inj (by decide) (by omega) (by omega) h
  rw [String.append_right_inj] at h
  obtain ⟨h₃, h⟩ := padZero_append_inj (by decide) t.day_lt t'.day_lt h
  rw [String.append_right_inj] at h
  obtain ⟨h₄, h⟩ := padZero_append_inj (by decide) (by omega) (by omega) h
  rw [String.append_right_inj] at h
  obtain ⟨h₅, h⟩ := padZero_append_inj (by decide) (by omega) (by omega) h
  rw [String.append_right_inj] at h
  obtain ⟨h₆, h⟩ := padZero_append_inj (by decide) (by omega) (by omega) h
  exact ⟨⟨h₁, h₂, h₃, h₄, h₅, h₆⟩, h⟩

/-- Fraction and offset are read back from the rest. -/
theorem fractionText_inj {t t' : Datetime} (h : t.fractionText = t'.fractionText) :
    t.microsecond = t'.microsecond ∧ t.utcoffset = t'.utcoffset := by
  obtain ⟨-, -, -, -, -, -, -, -, -, hmicro, hoff⟩ := t.valid
  obtain ⟨-, -, -, -, -, -, -, -, -, hmicro', hoff'⟩ := t'.valid
  have hsign : ∀ o, (offsetText o).toList ≠ [] ∧ (offsetText o).toList.head? ≠ some '.' := by
    intro o
    simp only [offsetText]
    split <;> simp
  have hpoint : ∀ t : Datetime,
      (match t.utcoffset with | none => "" | some o => offsetText o).toList.head? ≠ some '.' := by
    intro t
    cases t.utcoffset with
    | none => simp
    | some o => exact (hsign o).2
  have hmark : ".".toList = ['.'] := rfl
  obtain ⟨hfraction, h⟩ := optional_append_inj hmark (by decide) hmicro hmicro' (hpoint t) (hpoint t') h
  refine ⟨hfraction, ?_⟩
  cases ho : t.utcoffset with
  | none =>
      cases ho' : t'.utcoffset with
      | none => rfl
      | some o' =>
          rw [ho, ho'] at h
          exact absurd (congrArg String.toList h.symm) (hsign o').1
  | some o =>
      cases ho' : t'.utcoffset with
      | none =>
          rw [ho, ho'] at h
          exact absurd (congrArg String.toList h) (hsign o).1
      | some o' =>
          rw [ho, ho'] at h
          rw [offsetText_inj (hoff o ho) (hoff' o' ho') h]

/-- `isoformat()` tells timestamps apart. -/
theorem isoformat_injective : Function.Injective isoformat := by
  intro t t' h
  obtain ⟨⟨h₁, h₂, h₃, h₄, h₅, h₆⟩, hrest⟩ := isoformat_fields h
  obtain ⟨h₇, h₈⟩ := fractionText_inj hrest
  cases t
  cases t'
  simp only at h₁ h₂ h₃ h₄ h₅ h₆ h₇ h₈
  subst h₁ h₂ h₃ h₄ h₅ h₆ h₇ h₈
  rfl

end Datetime

/-! ## Amounts -/

/-- The same amount to the cent. -/
def Flt.SameCents : Flt → Flt → Prop
  | .num p, .num q => roundHalfEven (p * 100) = roundHalfEven (q * 100)
  | x, y => x = y

theorem roundHalfEven_nonneg {q : ℚ} (h : 0 ≤ q) : 0 ≤ roundHalfEven q := by
  have hfloor : 0 ≤ ⌊q⌋ := Int.floor_nonneg.mpr h
  unfold roundHalfEven
  dsimp only
  split_ifs <;> omega

theorem roundHalfEven_nonpos {q : ℚ} (h : q < 0) : roundHalfEven q ≤ 0 := by
  have hfloor : ⌊q⌋ < 0 := Int.floor_lt.mpr (by simpa using h)
  unfold roundHalfEven
  dsimp only
  split_ifs <;> omega

/-- The number of cents without its sign. -/
def centsText (n : ℕ) : String := toString (n / 100) ++ "." ++ padZero 2 (n % 100)

theorem centsText_toList (n : ℕ) :
    (centsText n).toList = Nat.toDigits 10 (n / 100) ++ '.' :: (padZero 2 (n % 100)).toList := by
  simp [centsText, toString]

theorem centsText_injective : Function.Injective centsText := by
  intro m n h
  have hlist := congrArg String.toList h
  rw [centsText_toList, centsText_toList] at hlist
  have hlen : ∀ k : ℕ, (padZero 2 (k % 100)).toList.length = 2 := fun k => length_padZero (by decide) (by omega)
  obtain ⟨hunits, hcents⟩ := List.append_inj' hlist (by simp [hlen])
  have hunits := congrArg (fun ds => Nat.ofDigitChars 10 ds 0) hunits
  simp only [Nat.ofDigitChars_ten_toDigits] at hunits
  have hcents := padZero_injective 2 (String.ext_iff.mpr (List.cons_eq_cons.mp hcents).2)
  omega

theorem mem_centsText {n : ℕ} {c : Char} (h : c ∈ (centsText n).toList) : c.isDigit ∨ c = '.' := by
  rw [centsText_toList] at h
  rcases List.mem_append.mp h with h | h
  · exact Or.inl (Nat.isDigit_of_mem_toDigits (by decide) (by decide) h)
  · rcases List.mem_cons.mp h with h | h
    · exact Or.inr h
    · exact Or.inl (isDigit_of_mem_padZero h)

theorem formatCents_num (q : ℚ) :
    formatCents (.num q) = (if q < 0 then "-" else "") ++ centsText (roundHalfEven (q * 100)).natAbs := by
  simp only [formatCents, centsText, String.append_assoc]

/-- The text of a finite amount determines its cents. -/
theorem formatCents_num_inj {p q : ℚ} (h : formatCents (.num p) = formatCents (.num q)) :
    roundHalfEven (p * 100) = roundHalfEven (q * 100) := by
  rw [formatCents_num, formatCents_num] at h
  have hminus : ∀ n : ℕ, ∀ s : String, centsText n ≠ "-" ++ s := by
    intro n s heq
    have hmem : '-' ∈ (centsText n).toList := by simp [heq]
    have := mem_centsText hmem
    revert this
    decide
  by_cases hp : p < 0 <;> by_cases hq : q < 0
  · simp only [hp, hq, if_true, String.append_right_inj] at h
    have hn := centsText_injective h
    have := roundHalfEven_nonpos (q := p * 100) (by linarith)
    have := roundHalfEven_nonpos (q := q * 100) (by linarith)
    omega
  · simp only [hp, hq, if_true, if_false, String.empty_append] at h
    exact absurd h.symm (hminus _ _)
  · simp only [hp, hq, if_true, if_false, String.empty_append] at h
    exact absurd h (hminus _ _)
  · simp only [hp, hq, if_false, String.append_right_inj] at h
    have hn := centsText_injective h
    have := roundHalfEven_nonneg (q := p * 100) (by linarith)
    have := roundHalfEven_nonneg (q := q * 100) (by linarith)
    omega

theorem point_mem_formatCents (q : ℚ) : '.' ∈ (formatCents (.num q)).toList := by
  rw [formatCents_num, String.toList_append, centsText_toList]
  simp

/-- A way of writing amounts that agrees with Python's on numbers determines an amount to the cent, if its
non-numbers have no point and differ from each other. -/
theorem sameCents_of_text (text : Flt → String) (hnum : ∀ q, text (.num q) = formatCents (.num q))
    (hpoint : '.' ∉ (text .nan).toList ∧ ∀ neg, '.' ∉ (text (.inf neg)).toList)
    (hinf : text (.inf true) ≠ text (.inf false)) (hnan : ∀ neg, text .nan ≠ text (.inf neg)) {x y : Flt}
    (h : text x = text y) : x.SameCents y := by
  have hne : ∀ q z, '.' ∉ (text z).toList → text (.num q) ≠ text z := by
    intro q z hz heq
    exact hz (heq ▸ hnum q ▸ point_mem_formatCents q)
  cases x with
  | num p =>
      cases y with
      | num q => exact formatCents_num_inj (by rw [← hnum, ← hnum, h])
      | nan => exact absurd h (hne p .nan hpoint.1)
      | inf neg => exact absurd h (hne p (.inf neg) (hpoint.2 neg))
  | nan =>
      cases y with
      | num q => exact absurd h.symm (hne q .nan hpoint.1)
      | nan => rfl
      | inf neg => exact absurd h (hnan neg)
  | inf neg =>
      cases y with
      | num q => exact absurd h.symm (hne q (.inf neg) (hpoint.2 neg))
      | nan => exact absurd h.symm (hnan neg)
      | inf neg' =>
          cases neg <;> cases neg'
          · rfl
          · exact absurd h.symm hinf
          · exact absurd h hinf
          · rfl

/-- The text of an amount determines it to the cent. -/
theorem formatCents_inj {x y : Flt} (h : formatCents x = formatCents y) : x.SameCents y :=
  sameCents_of_text formatCents (fun _ => rfl) (by decide) (by decide) (by decide) h

/-! ## Characters -/

theorem mem_formatCents_num {q : ℚ} {c : Char} (h : c ∈ (formatCents (.num q)).toList) :
    c.isDigit ∨ c = '.' ∨ c = '-' := by
  rw [formatCents_num, String.toList_append, List.mem_append] at h
  rcases h with h | h
  · split at h <;> simp_all
  · exact (mem_centsText h).imp_right Or.inl

theorem bar_notMem_padZero (width n : ℕ) : '|' ∉ (padZero width n).toList :=
  fun h => absurd (isDigit_of_mem_padZero h) (by decide)

theorem Datetime.bar_notMem_offsetText (o : ℤ) : '|' ∉ (offsetText o).toList := by
  simp only [offsetText, String.toList_append, List.mem_append, bar_notMem_padZero, or_false]
  split <;> split <;> simp [bar_notMem_padZero]

theorem Datetime.bar_notMem_isoformat (t : Datetime) : '|' ∉ t.isoformat.toList := by
  simp only [isoformat, String.toList_append, List.mem_append, bar_notMem_padZero, or_false]
  cases t.utcoffset with
  | none => split <;> simp [bar_notMem_padZero]
  | some o => split <;> simp [bar_notMem_padZero, bar_notMem_offsetText]

theorem Datetime.t_mem_isoformat (t : Datetime) : 'T' ∈ t.isoformat.toList := by
  simp [isoformat]

end Rtace
