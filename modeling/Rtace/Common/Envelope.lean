import Rtace.Common.ConsumerLoop
import Rtace.Common.Text

/-!
# The size of a dead letter

What `create_producer` makes of the payload that `_send_to_dlq` builds: `json.dumps` of the fields in ASCII, and
the record's key once more as the key of the message. The value is carried in base64, so it grows by a third; the
other texts grow with what has to be escaped.
-/

namespace Rtace

/-! ## `json.dumps` -/

/-- `\uXXXX`. -/
def unicodeEscape (n : ℕ) : String :=
  "\\u" ++ String.ofList ((Nat.toDigits 16 (n % 65536 + 65536)).drop 1)

/-- A character inside a JSON text, with `ensure_ascii`. -/
def jsonChar (c : Char) : String :=
  if c = '"' then "\\\""
  else if c = '\\' then "\\\\"
  else if c = '\n' then "\\n"
  else if c = '\r' then "\\r"
  else if c = '\t' then "\\t"
  else if c.toNat = 8 then "\\b"
  else if c.toNat = 12 then "\\f"
  else if 32 ≤ c.toNat ∧ c.toNat ≤ 126 then c.toString
  else if c.toNat < 65536 then unicodeEscape c.toNat
  -- beyond the basic plane: a surrogate pair
  else unicodeEscape (55296 + (c.toNat - 65536) / 1024) ++ unicodeEscape (56320 + (c.toNat - 65536) % 1024)

def jsonChars : List Char → String
  | [] => ""
  | c :: cs => jsonChar c ++ jsonChars cs

/-- `json.dumps` of a string. -/
def jsonString (s : String) : String := "\"" ++ jsonChars s.toList ++ "\""

/-- `json.dumps` of a string or `None`. -/
def jsonOptional : Option String → String
  | none => "null"
  | some s => jsonString s

namespace DeadLetter

/-- The fields of `json.dumps(payload)` before the value. -/
def origin (p : DeadLetter) : String :=
  "\x7b\"stage\": " ++ jsonString p.stage ++ ", \"source_topic\": " ++ jsonString p.sourceTopic ++
    ", \"partition\": " ++ toString p.partition ++ ", \"offset\": " ++ toString p.offset ++
    ", \"key\": " ++ jsonOptional p.key

/-- The fields before the time. -/
def body (p : DeadLetter) : String :=
  p.origin ++ ", \"value_base64\": " ++ jsonOptional p.valueBase64 ++
    (", \"error_type\": " ++ jsonString p.errorType ++ ", \"error\": " ++ jsonString p.error)

/-- `json.dumps(payload)`. -/
def dumps (p : DeadLetter) : String := p.body ++ (", \"failed_at\": " ++ jsonString p.failedAt ++ "\x7d")

/-- The bytes of the serialised key and value. -/
def serialisedSize (p : DeadLetter) : ℕ := (p.key.getD "").utf8ByteSize + p.dumps.utf8ByteSize

end DeadLetter

/-- A text of `datetime.now(timezone.utc).isoformat()`. -/
def UtcStamp (text : String) : Prop := ∃ t : Datetime, t.utcoffset = some 0 ∧ text = t.isoformat

/-! ## Sizes -/

/-- Every character that is not a control character, a quote, a backslash or beyond ASCII stands for itself. -/
def PlainChar (c : Char) : Prop := 32 ≤ c.toNat ∧ c.toNat ≤ 126 ∧ c ≠ '"' ∧ c ≠ '\\'

instance (c : Char) : Decidable (PlainChar c) := inferInstanceAs (Decidable (_ ∧ _))

theorem jsonChar_plain {c : Char} (h : PlainChar c) : jsonChar c = c.toString := by
  obtain ⟨hlow, hhigh, hquote, hslash⟩ := h
  have hctl : ∀ d : Char, d.toNat < 32 → c ≠ d := by
    rintro d hd rfl
    omega
  unfold jsonChar
  rw [if_neg hquote, if_neg hslash, if_neg (hctl _ (by decide)), if_neg (hctl _ (by decide)),
    if_neg (hctl _ (by decide)), if_neg (by omega), if_neg (by omega), if_pos ⟨hlow, hhigh⟩]

/-- A plain text grows by its quotes only. -/
theorem utf8ByteSize_jsonChars {cs : List Char} (h : ∀ c ∈ cs, PlainChar c) :
    (jsonChars cs).utf8ByteSize = cs.length := by
  induction cs with
  | nil => rfl
  | cons c cs ih =>
      have hc : PlainChar c := h c List.mem_cons_self
      have hsize : c.toString.utf8ByteSize = 1 := by
        rw [Char.toString_eq_singleton, String.utf8ByteSize_singleton, Char.utf8Size_eq_one_iff]
        exact UInt32.le_iff_toNat_le.mpr (hc.2.1.trans (by decide))
      rw [jsonChars, String.utf8ByteSize_append, jsonChar_plain hc, hsize,
        ih fun d hd => h d (List.mem_cons_of_mem _ hd), List.length_cons, Nat.add_comm]

theorem utf8ByteSize_jsonString {s : String} (h : ∀ c ∈ s.toList, PlainChar c) :
    (jsonString s).utf8ByteSize = s.toList.length + 2 := by
  have hquote : "\"".utf8ByteSize = 1 := by decide
  rw [jsonString, String.utf8ByteSize_append, String.utf8ByteSize_append, utf8ByteSize_jsonChars h, hquote]
  omega

theorem base64Digit_plain (n : ℕ) : PlainChar (base64Digit n) := by
  have hall : ∀ m < 64, PlainChar (base64Digit m) := by decide +kernel
  have hmod : base64Digit n = base64Digit (n % 64) := by
    rw [base64Digit, base64Digit, Nat.mod_mod]
  rw [hmod]
  exact hall _ (Nat.mod_lt _ (by decide))

theorem base64Chars_plain (raw : List UInt8) : ∀ c ∈ base64Chars raw, PlainChar c := by
  have hpad : PlainChar '=' := by decide
  induction raw using base64Chars.induct with
  | case1 => simp [base64Chars]
  | case2 x => simp [base64Chars, base64Digit_plain, hpad]
  | case3 x y => simp [base64Chars, base64Digit_plain, hpad]
  | case4 x y z rest ih =>
      intro c hc
      rw [base64Chars, List.mem_append] at hc
      rcases hc with hc | hc
      · simp only [List.mem_cons, List.not_mem_nil, or_false] at hc
        rcases hc with rfl | rfl | rfl | rfl <;> exact base64Digit_plain _
      · exact ih c hc

/-- Every three bytes become four. -/
theorem length_base64Chars (raw : List UInt8) : (base64Chars raw).length = 4 * ((raw.length + 2) / 3) := by
  induction raw using base64Chars.induct with
  | case1 => rfl
  | case2 x => simp [base64Chars]
  | case3 x y => simp [base64Chars]
  | case4 x y z rest ih =>
      simp only [base64Chars, List.length_append, ih, List.length_cons, List.length_nil]
      omega

/-- The size of a value in a dead letter. -/
theorem utf8ByteSize_b64encode (raw : List UInt8) :
    (jsonString (b64encode raw)).utf8ByteSize = 4 * ((raw.length + 2) / 3) + 2 := by
  rw [utf8ByteSize_jsonString (by simpa [b64encode] using base64Chars_plain raw), b64encode, String.toList_ofList,
    length_base64Chars]

/-! ## The time of the failure -/

theorem plainChar_of_isDigit {c : Char} (h : c.isDigit) : PlainChar c := by
  simp only [Char.isDigit, Bool.and_eq_true, decide_eq_true_eq] at h
  have hlow : 48 ≤ c.toNat := UInt32.le_iff_toNat_le.mp h.1
  have hhigh : c.toNat ≤ 57 := UInt32.le_iff_toNat_le.mp h.2
  refine ⟨by omega, by omega, ?_, ?_⟩
  · rintro rfl
    exact absurd hlow (by decide)
  · rintro rfl
    exact absurd hhigh (by decide)

/-- Plain text of at most `n` characters. -/
structure PlainWithin (n : ℕ) (s : String) : Prop where
  plain : ∀ c ∈ s.toList, PlainChar c
  length : s.toList.length ≤ n

theorem PlainWithin.append {m n : ℕ} {s t : String} (hs : PlainWithin m s) (ht : PlainWithin n t) :
    PlainWithin (m + n) (s ++ t) := by
  refine ⟨fun c hc => ?_, ?_⟩
  · rw [String.toList_append] at hc
    exact (List.mem_append.mp hc).elim (hs.plain c) (ht.plain c)
  · rw [String.toList_append, List.length_append]
    exact Nat.add_le_add hs.length ht.length

theorem plainWithin_of_all {n : ℕ} {s : String} (hall : s.toList.all (fun c => decide (PlainChar c)) = true)
    (hlength : s.toList.length ≤ n) : PlainWithin n s :=
  ⟨fun c hc => of_decide_eq_true (List.all_eq_true.mp hall c hc), hlength⟩

theorem plainWithin_padZero {width n : ℕ} (hw : 0 < width) (hn : n < 10 ^ width) : PlainWithin width (padZero width n) where
  plain _ hc := plainChar_of_isDigit (isDigit_of_mem_padZero hc)
  length := (length_padZero hw hn).le

/-- A UTC timestamp is plain, and has at most 32 characters. -/
theorem UtcStamp.plainWithin {text : String} (h : UtcStamp text) : PlainWithin 32 text := by
  obtain ⟨t, hutc, rfl⟩ := h
  obtain ⟨-, hyear, -, hmonth, -, -, hhour, hminute, hsecond, hmicro, -⟩ := t.valid
  have hdash : PlainWithin 1 "-" := plainWithin_of_all (by decide) (by decide)
  have hcolon : PlainWithin 1 ":" := plainWithin_of_all (by decide) (by decide)
  have hT : PlainWithin 1 "T" := plainWithin_of_all (by decide) (by decide)
  have hfraction : PlainWithin 7 (if t.microsecond = 0 then "" else "." ++ padZero 6 t.microsecond) := by
    split
    · exact ⟨by simp, by simp⟩
    · have hpoint : PlainWithin 1 "." := plainWithin_of_all (by decide) (by decide)
      have hdigits : PlainWithin 6 (padZero 6 t.microsecond) := plainWithin_padZero (by decide) hmicro
      exact hpoint.append hdigits
  have hoffset : PlainWithin 6 (Datetime.offsetText 0) := plainWithin_of_all (by decide) (by decide)
  have hfour : PlainWithin 4 (padZero 4 t.year) := plainWithin_padZero (by decide) (by omega)
  have htwo : ∀ n < 100, PlainWithin 2 (padZero 2 n) := fun n hn => plainWithin_padZero (by decide) hn
  have hdate : PlainWithin 11 (padZero 4 t.year ++ "-" ++ padZero 2 t.month ++ "-" ++ padZero 2 t.day ++ "T") :=
    ((((hfour.append hdash).append (htwo _ (by omega))).append hdash).append (htwo _ t.day_lt)).append hT
  rw [Datetime.isoformat, hutc]
  exact ((((((hdate.append (htwo _ (by omega))).append hcolon).append (htwo _ (by omega))).append hcolon).append
    (htwo _ (by omega))).append hfraction).append hoffset

theorem exists_utcStamp : ∃ text, UtcStamp text ∧ text.toList.length = 32 :=
  ⟨_, ⟨⟨2024, 1, 1, 0, 0, 0, 1, some 0, by decide⟩, rfl, rfl⟩, by decide⟩

/-- The largest size of the dead letter of a record, over the times at which it may be sent. -/
def envelopeSize (c : Codec) (settings : LoopSettings) (r : Record) (e : Raised) : ℕ :=
  (deadLetterOf c settings "" r e).serialisedSize + 32

section

variable {c : Codec} {settings : LoopSettings} {r : Record} {e : Raised} {text : String}

theorem serialisedSize_deadLetterOf (h : ∀ ch ∈ text.toList, PlainChar ch) :
    (deadLetterOf c settings text r e).serialisedSize
      = (deadLetterOf c settings "" r e).serialisedSize + text.toList.length := by
  have hempty : (jsonString "").utf8ByteSize = 2 := by decide
  have hkey : (deadLetterOf c settings text r e).key = (deadLetterOf c settings "" r e).key := rfl
  have hbody : (deadLetterOf c settings text r e).body = (deadLetterOf c settings "" r e).body := rfl
  have htime : ∀ text, (deadLetterOf c settings text r e).failedAt = text := fun _ => rfl
  simp only [DeadLetter.serialisedSize, DeadLetter.dumps, String.utf8ByteSize_append, htime, hempty,
    utf8ByteSize_jsonString h]
  rw [hkey, hbody]
  ring

theorem serialisedSize_le (h : UtcStamp text) :
    (deadLetterOf c settings text r e).serialisedSize ≤ envelopeSize c settings r e := by
  rw [serialisedSize_deadLetterOf h.plainWithin.plain, envelopeSize]
  have hlength := h.plainWithin.length
  omega

/-- There are times at which it has this size. -/
theorem exists_serialisedSize (c : Codec) (settings : LoopSettings) (r : Record) (e : Raised) :
    ∃ text, UtcStamp text ∧ (deadLetterOf c settings text r e).serialisedSize = envelopeSize c settings r e := by
  obtain ⟨text, htext, hlength⟩ := exists_utcStamp
  exact ⟨text, htext, by rw [serialisedSize_deadLetterOf htext.plainWithin.plain, hlength, envelopeSize]⟩

/-- A value of `n` bytes makes a dead letter of more than `4 n / 3`. -/
theorem lt_envelopeSize {raw : List UInt8} (h : r.value = some raw) (hne : raw ≠ []) :
    4 * ((raw.length + 2) / 3) < envelopeSize c settings r e := by
  have hvalue : (deadLetterOf c settings "" r e).valueBase64 = some (b64encode raw) := by
    simp [deadLetterOf, h, hne]
  have hdumps : (jsonString (b64encode raw)).utf8ByteSize ≤ (deadLetterOf c settings "" r e).dumps.utf8ByteSize := by
    rw [DeadLetter.dumps, DeadLetter.body, hvalue, jsonOptional, String.utf8ByteSize_append, String.utf8ByteSize_append,
      String.utf8ByteSize_append]
    exact Nat.le_trans (Nat.le_add_left _ _) (Nat.le_trans (Nat.le_add_right _ _) (Nat.le_add_right _ _))
  rw [utf8ByteSize_b64encode] at hdumps
  rw [envelopeSize, DeadLetter.serialisedSize]
  omega

end

end Rtace
