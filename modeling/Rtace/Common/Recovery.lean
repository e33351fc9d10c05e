import Rtace.Common.Wedge
import Rtace.Lib.Reader

/-!
# What is dead-lettered can be recovered

The payload of a dead letter holds where its record comes from and, in base64, its value. So the text on the topic
gives the record back; and by the time a batch is committed the dead letters of its last attempt are acknowledged,
whatever its handler did with its own messages before.
-/

namespace Rtace

open Lib Lib.Reader

/-! ## base64 -/

/-- The number that a base64 digit stands for. -/
def base64Value (c : Char) : ℕ :=
  "ABCDEFGHIJKLMNOPQRSTUVWXYZabcdefghijklmnopqrstuvwxyz0123456789+/".toList.idxOf c

/-- `base64.b64decode`, of texts that are a sequence of whole groups. -/
def base64Bytes : List Char → List UInt8
  | a :: b :: c :: d :: rest =>
      UInt8.ofNat (base64Value a * 4 + base64Value b / 16) ::
        if c = '=' then []
        else UInt8.ofNat (base64Value b % 16 * 16 + base64Value c / 4) ::
          if d = '=' then [] else UInt8.ofNat (base64Value c % 4 * 64 + base64Value d) :: base64Bytes rest
  | _ => []

theorem base64Value_digit (n : ℕ) : base64Value (base64Digit n) = n % 64 := by
  have hall : ∀ m < 64, base64Value (base64Digit m) = m := by decide
  have hmod : base64Digit n = base64Digit (n % 64) := by simp [base64Digit]
  rw [hmod, hall _ (Nat.mod_lt n (by decide))]

theorem base64Digit_ne_pad (n : ℕ) : base64Digit n ≠ '=' := by
  intro h
  have hvalue := base64Value_digit n
  rw [h] at hvalue
  have hlt := Nat.mod_lt n (show 0 < 64 by decide)
  rw [← hvalue] at hlt
  revert hlt
  decide

theorem ofNat_eq {x : UInt8} {n : ℕ} (h : n = x.toNat) : UInt8.ofNat n = x := by
  rw [h, UInt8.ofNat_toNat]

theorem base64Bytes_base64Chars (raw : List UInt8) : base64Bytes (base64Chars raw) = raw := by
  induction raw using base64Chars.induct with
  | case1 => rfl
  | case2 x =>
      have hx := x.toNat_lt
      simp only [base64Chars, base64Bytes, base64Value_digit, if_true]
      rw [ofNat_eq (x := x) (by omega)]
  | case3 x y =>
      have hx := x.toNat_lt
      have hy := y.toNat_lt
      simp only [base64Chars, base64Bytes, base64Value_digit, base64Digit_ne_pad, if_true, if_false]
      rw [ofNat_eq (x := x) (by omega), ofNat_eq (x := y) (by omega)]
  | case4 x y z rest ih =>
      have hx := x.toNat_lt
      have hy := y.toNat_lt
      have hz := z.toNat_lt
      simp only [base64Chars, List.cons_append, List.nil_append, base64Bytes, base64Value_digit, base64Digit_ne_pad,
        if_false, ih]
      rw [ofNat_eq (x := x) (by omega), ofNat_eq (x := y) (by omega), ofNat_eq (x := z) (by omega)]

/-! ## `json.loads` -/

/-- A hexadecimal digit. -/
def hexValue (c : Char) : ℕ := if c.isDigit then c.toNat - 48 else c.toNat - 87

/-- `\uXXXX`. -/
def readEscape : Reader ℕ
  | '\\' :: 'u' :: a :: b :: c :: d :: rest =>
      some (((hexValue a * 16 + hexValue b) * 16 + hexValue c) * 16 + hexValue d, rest)
  | _ => none

/-- A character by its number, or by its surrogate pair. -/
def readUnicode : Reader Char := fun cs => do
  let (n, rest) ← readEscape cs
  if 55296 ≤ n ∧ n < 56320 then do
    let (m, rest) ← readEscape rest
    pure (Char.ofNat (65536 + (n - 55296) * 1024 + (m - 56320)), rest)
  else pure (Char.ofNat n, rest)

/-- A character inside a JSON text. -/
def readChar : Reader Char
  | '\\' :: 'u' :: rest => readUnicode ('\\' :: 'u' :: rest)
  | '\\' :: 'n' :: rest => some ('\n', rest)
  | '\\' :: 'r' :: rest => some ('\r', rest)
  | '\\' :: 't' :: rest => some ('\t', rest)
  | '\\' :: 'b' :: rest => some (Char.ofNat 8, rest)
  | '\\' :: 'f' :: rest => some (Char.ofNat 12, rest)
  | '\\' :: c :: rest => some (c, rest)
  | c :: rest => some (c, rest)
  | [] => none

theorem toList_unicodeEscape {n : ℕ} (h : n < 65536) :
    (unicodeEscape n).toList = ['\\', 'u', (n / 4096).digitChar, (n / 256 % 16).digitChar,
      (n / 16 % 16).digitChar, (n % 16).digitChar] := by
  have hdigits : Nat.toDigits 16 (n % 65536 + 65536) = ['1', (n / 4096).digitChar, (n / 256 % 16).digitChar,
      (n / 16 % 16).digitChar, (n % 16).digitChar] := by
    rw [Nat.mod_eq_of_lt h]
    rw [Nat.toDigits_of_base_le (by decide) (by omega), Nat.toDigits_of_base_le (by decide) (by omega),
      Nat.toDigits_of_base_le (by decide) (by omega), Nat.toDigits_of_base_le (by decide) (by omega),
      Nat.toDigits_of_lt_base (by omega)]
    rw [show (n + 65536) / 16 / 16 / 16 / 16 = 1 by omega, show (n + 65536) / 16 / 16 / 16 % 16 = n / 4096 by omega,
      show (n + 65536) / 16 / 16 % 16 = n / 256 % 16 by omega, show (n + 65536) / 16 % 16 = n / 16 % 16 by omega,
      show (n + 65536) % 16 = n % 16 by omega]
    rfl
  simp [unicodeEscape, hdigits]

theorem hexValue_digitChar {n : ℕ} (h : n < 16) : hexValue n.digitChar = n := by
  have hall : ∀ m < 16, hexValue (Nat.digitChar m) = m := by decide
  exact hall n h

theorem readEscape_unicodeEscape {n : ℕ} (h : n < 65536) (rest : List Char) :
    readEscape ((unicodeEscape n).toList ++ rest) = some (n, rest) := by
  rw [toList_unicodeEscape h]
  simp only [List.cons_append, List.nil_append, readEscape]
  rw [hexValue_digitChar (by omega), hexValue_digitChar (by omega), hexValue_digitChar (by omega),
    hexValue_digitChar (by omega)]
  congr 2
  omega

theorem readChar_unicodeEscape {n : ℕ} (h : n < 65536) (rest : List Char) :
    readChar ((unicodeEscape n).toList ++ rest) = readUnicode ((unicodeEscape n).toList ++ rest) := by
  rw [toList_unicodeEscape h]
  rfl

theorem readChar_plain {c : Char} (h : c ≠ '\\') (rest : List Char) : readChar (c :: rest) = some (c, rest) := by
  rw [readChar]
  all_goals intros; simp_all

theorem toNat_valid (c : Char) : c.toNat < 55296 ∨ 57343 < c.toNat ∧ c.toNat < 1114112 := c.valid

/-- A character of the basic plane. -/
theorem readUnicode_basic {c : Char} (h : c.toNat < 65536) (rest : List Char) :
    readUnicode ((unicodeEscape c.toNat).toList ++ rest) = some (c, rest) := by
  have hvalid := toNat_valid c
  have hsingle : ¬ (55296 ≤ c.toNat ∧ c.toNat < 56320) := by omega
  rw [readUnicode, readEscape_unicodeEscape h]
  simp [hsingle]

/-- A surrogate pair. -/
theorem readUnicode_pair {n m : ℕ} (hn : 55296 ≤ n ∧ n < 56320) (hm : m < 65536) (rest : List Char) :
    readUnicode ((unicodeEscape n).toList ++ ((unicodeEscape m).toList ++ rest)) =
      some (Char.ofNat (65536 + (n - 55296) * 1024 + (m - 56320)), rest) := by
  rw [readUnicode, readEscape_unicodeEscape (by omega)]
  simp only [Option.bind_eq_bind, Option.bind_some, if_pos hn]
  rw [readEscape_unicodeEscape hm]
  rfl

/-- A character beyond the basic plane. -/
theorem readUnicode_beyond {c : Char} (h : ¬ c.toNat < 65536) (rest : List Char) :
    readUnicode ((unicodeEscape (55296 + (c.toNat - 65536) / 1024)).toList ++
      ((unicodeEscape (56320 + (c.toNat - 65536) % 1024)).toList ++ rest)) = some (c, rest) := by
  have hvalid := toNat_valid c
  rw [readUnicode_pair (by omega) (by omega), Nat.add_sub_cancel_left, Nat.add_sub_cancel_left]
  rw [show 65536 + (c.toNat - 65536) / 1024 * 1024 + (c.toNat - 65536) % 1024 = c.toNat by omega, Char.ofNat_toNat]

/-- Every character can be read back. -/
theorem reads_jsonChar : Reads readChar fun c => (jsonChar c).toList := by
  intro c rest
  simp only [jsonChar]
  split
  case isTrue h => rw [h]; rfl
  split
  case isTrue h => rw [h]; rfl
  case isFalse hbackslash =>
  split
  case isTrue h => rw [h]; rfl
  split
  case isTrue h => rw [h]; rfl
  split
  case isTrue h => rw [h]; rfl
  split
  case isTrue h =>
    rw [← Char.ofNat_toNat c, h]
    rfl
  split
  case isTrue h =>
    rw [← Char.ofNat_toNat c, h]
    rfl
  split
  case isTrue h =>
    rw [Char.toString, String.toList_singleton]
    exact readChar_plain hbackslash rest
  split
  case isTrue h => rw [readChar_unicodeEscape h, readUnicode_basic h]
  case isFalse h =>
    have hvalid := toNat_valid c
    rw [String.toList_append, List.append_assoc, readChar_unicodeEscape (by omega), readUnicode_beyond h]

/-- No character is written with a quotation mark first. -/
theorem jsonChar_open (c : Char) : ∃ d cs, (jsonChar c).toList = d :: cs ∧ d ≠ '"' := by
  have hescape (n : ℕ) : ∃ cs, (unicodeEscape n).toList = '\\' :: cs := ⟨_, by rw [unicodeEscape, String.toList_append]; rfl⟩
  simp only [jsonChar]
  split
  case isTrue => exact ⟨'\\', ['"'], rfl, by decide⟩
  case isFalse hquote =>
  split
  case isTrue => exact ⟨'\\', ['\\'], rfl, by decide⟩
  split
  case isTrue => exact ⟨'\\', ['n'], rfl, by decide⟩
  split
  case isTrue => exact ⟨'\\', ['r'], rfl, by decide⟩
  split
  case isTrue => exact ⟨'\\', ['t'], rfl, by decide⟩
  split
  case isTrue => exact ⟨'\\', ['b'], rfl, by decide⟩
  split
  case isTrue => exact ⟨'\\', ['f'], rfl, by decide⟩
  split
  case isTrue => exact ⟨c, [], by rw [Char.toString, String.toList_singleton], hquote⟩
  split
  case isTrue =>
    obtain ⟨cs, hcs⟩ := hescape c.toNat
    exact ⟨_, cs, hcs, by decide⟩
  case isFalse =>
    obtain ⟨cs, hcs⟩ := hescape (55296 + (c.toNat - 65536) / 1024)
    exact ⟨_, _, by rw [String.toList_append, hcs, List.cons_append], by decide⟩

theorem toList_jsonChars (cs : List Char) : (jsonChars cs).toList = cs.flatMap fun c => (jsonChar c).toList := by
  induction cs with
  | nil => rfl
  | cons c cs ih => rw [jsonChars, String.toList_append, ih, List.flatMap_cons]

theorem length_le_jsonChars (cs : List Char) : cs.length ≤ (jsonChars cs).toList.length := by
  induction cs with
  | nil => simp
  | cons c cs ih =>
      obtain ⟨d, ds, hd, -⟩ := jsonChar_open c
      rw [jsonChars, String.toList_append, hd]
      simp only [List.length_cons, List.length_append]
      omega

/-- A JSON text. -/
def readString : Reader String
  | '"' :: cs => (closed readChar '"' cs.length cs).map fun x => (String.ofList x.1, x.2)
  | _ => none

theorem reads_jsonString : Reads readString fun s => (jsonString s).toList := by
  intro s rest
  have htext : (jsonString s).toList ++ rest = '"' :: ((jsonChars s.toList).toList ++ '"' :: rest) := by
    simp [jsonString]
  have hlength : s.toList.length < ((jsonChars s.toList).toList ++ '"' :: rest).length := by
    have hle := length_le_jsonChars s.toList
    rw [List.length_append, List.length_cons]
    omega
  have hchars := closed_append reads_jsonChar jsonChar_open s.toList rest hlength
  rw [← toList_jsonChars] at hchars
  rw [htext, readString, hchars]
  simp

/-- A JSON text or `null`. -/
def readOptional : Reader (Option String)
  | 'n' :: 'u' :: 'l' :: 'l' :: rest => some (none, rest)
  | cs => (readString cs).map fun x => (some x.1, x.2)

theorem reads_jsonOptional : Reads readOptional fun s => (jsonOptional s).toList := by
  intro s rest
  cases s with
  | none => rfl
  | some s =>
      have hstring : readString ((jsonString s).toList ++ rest) = some (s, rest) := reads_jsonString s rest
      have htext : (jsonString s).toList = '"' :: ((jsonChars s.toList).toList ++ ['"']) := by simp [jsonString]
      simp only [jsonOptional]
      rw [htext, List.cons_append] at hstring ⊢
      rw [readOptional, hstring]
      · rfl
      · simp

/-- A field: its name with the punctuation, and its value. -/
def readField {α : Type} (name : String) (value : Reader α) : Reader α := fun cs =>
  (literal name.toList cs).bind fun x => value x.2

theorem readField_append {α : Type} (name : String) (value : Reader α) (cs : List Char) :
    readField name value (name.toList ++ cs) = value cs := by
  rw [readField, literal_append, Option.bind_some]

theorem readField_string (name s : String) (rest : List Char) :
    readField name readString (name.toList ++ ((jsonString s).toList ++ rest)) = some (s, rest) := by
  rw [readField_append]
  exact reads_jsonString s rest

theorem readField_optional (name : String) (s : Option String) (rest : List Char) :
    readField name readOptional (name.toList ++ ((jsonOptional s).toList ++ rest)) = some (s, rest) := by
  rw [readField_append]
  exact reads_jsonOptional s rest

/-- A number ends at the comma before the next field. -/
theorem readField_number (name : String) (n : ℕ) {next : String} (hnext : next.toList.head? = some ',')
    (rest : List Char) :
    readField name number (name.toList ++ ((toString n).toList ++ (next.toList ++ rest))) =
      some (n, next.toList ++ rest) := by
  rw [readField_append, Nat.toString_eq_repr, Nat.toList_repr]
  refine number_append n ?_
  rw [List.head?_append, hnext]
  rintro c ⟨⟩
  rfl

namespace DeadLetter

/-- `json.loads` of a dead letter. -/
def loads (text : String) : Option DeadLetter := do
  let (stage, cs) ← readField "\x7b\"stage\": " readString text.toList
  let (sourceTopic, cs) ← readField ", \"source_topic\": " readString cs
  let (partition, cs) ← readField ", \"partition\": " number cs
  let (offset, cs) ← readField ", \"offset\": " number cs
  let (key, cs) ← readField ", \"key\": " readOptional cs
  let (valueBase64, cs) ← readField ", \"value_base64\": " readOptional cs
  let (errorType, cs) ← readField ", \"error_type\": " readString cs
  let (error, cs) ← readField ", \"error\": " readString cs
  let (failedAt, cs) ← readField ", \"failed_at\": " readString cs
  let (_, _) ← literal "\x7d".toList cs
  pure ⟨stage, sourceTopic, partition, offset, key, valueBase64, errorType, error, failedAt⟩

theorem toList_dumps (p : DeadLetter) : p.dumps.toList =
    "\x7b\"stage\": ".toList ++ ((jsonString p.stage).toList ++
    (", \"source_topic\": ".toList ++ ((jsonString p.sourceTopic).toList ++
    (", \"partition\": ".toList ++ ((toString p.partition).toList ++
    (", \"offset\": ".toList ++ ((toString p.offset).toList ++
    (", \"key\": ".toList ++ ((jsonOptional p.key).toList ++
    (", \"value_base64\": ".toList ++ ((jsonOptional p.valueBase64).toList ++
    (", \"error_type\": ".toList ++ ((jsonString p.errorType).toList ++
    (", \"error\": ".toList ++ ((jsonString p.error).toList ++
    (", \"failed_at\": ".toList ++ ((jsonString p.failedAt).toList ++ "\x7d".toList))))))))))))))))) := by
  unfold dumps body origin
  simp only [String.toList_append, List.append_assoc, -String.reduceToList]

/-- The text of a dead letter can be read back. -/
theorem loads_dumps (p : DeadLetter) : loads p.dumps = some p := by
  rw [loads, toList_dumps]
  refine Option.bind_eq_some_iff.mpr ⟨_, readField_string _ p.stage _, ?_⟩
  refine Option.bind_eq_some_iff.mpr ⟨_, readField_string _ p.sourceTopic _, ?_⟩
  refine Option.bind_eq_some_iff.mpr ⟨_, readField_number _ p.partition rfl _, ?_⟩
  refine Option.bind_eq_some_iff.mpr ⟨_, readField_number _ p.offset rfl _, ?_⟩
  refine Option.bind_eq_some_iff.mpr ⟨_, readField_optional _ p.key _, ?_⟩
  refine Option.bind_eq_some_iff.mpr ⟨_, readField_optional _ p.valueBase64 _, ?_⟩
  refine Option.bind_eq_some_iff.mpr ⟨_, readField_string _ p.errorType _, ?_⟩
  refine Option.bind_eq_some_iff.mpr ⟨_, readField_string _ p.error _, ?_⟩
  refine Option.bind_eq_some_iff.mpr ⟨_, readField_string _ p.failedAt _, ?_⟩
  rfl

end DeadLetter

/-! ## From the text to the record -/

/-- Where the record of a dead letter comes from, and its value. -/
def recover (text : String) : Option (String × ℕ × ℕ × Option (List UInt8)) :=
  (DeadLetter.loads text).map fun p =>
    (p.sourceTopic, p.partition, p.offset, p.valueBase64.map fun digits => base64Bytes digits.toList)

section

variable {M : Type} {c : Codec} {settings : LoopSettings}

/-- A record that is not skipped has a value. -/
theorem filter_value {r : Record} (h : decodeJson c r.value ≠ .ok none) : r.value.filter (· ≠ []) = r.value := by
  rcases hvalue : r.value with _ | _ | ⟨b, raw⟩
  · rfl
  · rw [hvalue] at h
    exact absurd rfl h
  · simp

theorem recover_deadLetterOf {r : Record} (h : decodeJson c r.value ≠ .ok none) (failedAt : String) (e : Raised) :
    recover (deadLetterOf c settings failedAt r e).dumps = some (r.topic, r.partition, r.offset, r.value) := by
  have hbytes : ((r.value.filter (· ≠ [])).map b64encode).map (fun digits => base64Bytes digits.toList) = r.value := by
    rw [filter_value h, Option.map_map]
    cases r.value with
    | none => rfl
    | some raw => simp [b64encode, base64Bytes_base64Chars]
  rw [recover, DeadLetter.loads_dumps, Option.map_some]
  exact congrArg (fun value => some (r.topic, r.partition, r.offset, value)) hbytes

theorem decodeJson_of_mem_dlqOf {records : List Record} {o : Outcome} {r : Record} {e : Raised}
    (h : (r, e) ∈ dlqOf c records o) : decodeJson c r.value ≠ .ok none := by
  rcases mem_dlqOf.mp h with ⟨-, herror⟩ | ⟨i, v, hi, -⟩
  · rw [herror]
    simp
  · obtain ⟨r', -, hr'⟩ := List.mem_filterMap.mp (List.mem_of_getElem? hi)
    split at hr'
    · rename_i w hw
      obtain ⟨rfl, rfl⟩ := Prod.mk.inj (Option.some.inj hr')
      rw [hw]
      simp
    · cases hr'

/-! ## Delivered by the commit -/

/-- A dead letter of the record is acknowledged. -/
def Delivered (c : Codec) (settings : LoopSettings) (s : Loop M) (d : Record × Raised) : Prop :=
  ∃ n failedAt, n ∈ s.producer.acked ∧
    s.producer.log[n]? = some (.deadLetter (deadLetterOf c settings failedAt d.1 d.2))

/-- A dead letter of the record is acknowledged or in flight, or the attempt will not get through the gate. -/
def Posted (c : Codec) (settings : LoopSettings) (s : Loop M) (d : Record × Raised) : Prop :=
  ∃ n failedAt, (n ∈ s.producer.acked ∨ n ∈ s.producer.inflight ∨ s.producer.latch = true) ∧
    s.producer.log[n]? = some (.deadLetter (deadLetterOf c settings failedAt d.1 d.2))

/-- The dead letters of an attempt, by phase. The handler can consume a latched failure, but not once the dead
letters are being sent. -/
def Owed (c : Codec) (settings : LoopSettings) (s : Loop M) : Prop :=
  match s.phase with
  | .deadLettering records todo =>
      ∃ o done, s.outcome = some o ∧ dlqOf c records o = done ++ todo ∧ ∀ d ∈ done, Posted c settings s d
  | .verifying records => ∃ o, s.outcome = some o ∧ ∀ d ∈ dlqOf c records o, Posted c settings s d
  | .committing records =>
      decodedOf c records = [] ∧ undecodableOf c records = [] ∨
        ∃ o, s.outcome = some o ∧ ∀ d ∈ dlqOf c records o, Delivered c settings s d
  | _ => True

variable {s t : Loop M} {d : Record × Raised}

theorem Posted.mono (h : Posted c settings s d) (hlog : s.producer.log <+: t.producer.log)
    (hstatus : ∀ n, n ∈ s.producer.acked ∨ n ∈ s.producer.inflight ∨ s.producer.latch = true →
      n ∈ t.producer.acked ∨ n ∈ t.producer.inflight ∨ t.producer.latch = true) : Posted c settings t d := by
  obtain ⟨n, failedAt, hn, hletter⟩ := h
  exact ⟨n, failedAt, hstatus n hn, getElem?_of_prefix hlog hletter⟩

/-- A step of the broker. -/
theorem Owed.congr (h : Owed c settings s) (hphase : t.phase = s.phase) (hout : t.outcome = s.outcome)
    (hlog : t.producer.log = s.producer.log) (hacked : s.producer.acked ⊆ t.producer.acked)
    (hstatus : ∀ n, n ∈ s.producer.acked ∨ n ∈ s.producer.inflight ∨ s.producer.latch = true →
      n ∈ t.producer.acked ∨ n ∈ t.producer.inflight ∨ t.producer.latch = true) : Owed c settings t := by
  have hposted (d : Record × Raised) (hd : Posted c settings s d) : Posted c settings t d :=
    hd.mono (hlog ▸ List.prefix_rfl) hstatus
  unfold Owed at h ⊢
  rw [hphase, hout]
  split at h
  · obtain ⟨o, done, ho, hsplit, hdone⟩ := h
    exact ⟨o, done, ho, hsplit, fun d hd => hposted d (hdone d hd)⟩
  · obtain ⟨o, ho, hall⟩ := h
    exact ⟨o, ho, fun d hd => hposted d (hall d hd)⟩
  · rcases h with hskip | ⟨o, ho, hall⟩
    · exact .inl hskip
    · refine .inr ⟨o, ho, fun d hd => ?_⟩
      obtain ⟨n, failedAt, hn, hletter⟩ := hall d hd
      exact ⟨n, failedAt, hacked hn, by rw [hlog, hletter]⟩
  · trivial

theorem Owed.step {l : LoopLabel M} (h : Owed c settings s) (hl : LoopStep c settings s l t) : Owed c settings t := by
  cases hl with
  | pollNothing | handlerFlush => exact h
  | poll | pollEscape | stop | dlqEscape | retry | abandon | sleep | commit | notVerified => trivial
  | pollSkipped records hp hs hne hasc hdec hund => exact .inl ⟨hdec, hund⟩
  | handlerSend records m enqueued hp =>
      have hphase : (s.send (.fromHandler m) enqueued).phase = .handling records := hp
      simp only [Owed, hphase]
  | handlerFlushRaised records hp => simp only [Owed, hp]
  | handlerEnd records o hp hdec =>
      simp only [Loop.finish]
      split
      · trivial
      · exact ⟨o, [], rfl, rfl, by simp⟩
  | noHandler records hp hdec => exact ⟨_, [], rfl, rfl, by simp⟩
  | sendToDlq records r e todo failedAt enqueued hp =>
      simp only [Owed, hp] at h
      obtain ⟨o, done, ho, hsplit, hdone⟩ := h
      refine ⟨o, done ++ [(r, e)], ho, by rw [hsplit]; simp, fun d hd => ?_⟩
      rcases List.mem_append.mp hd with hd | hd
      · refine (hdone d hd).mono (List.prefix_append ..) ?_
        rintro n (hn | hn | hn)
        · exact .inl hn
        · refine .inr (.inl ?_)
          simp only [Loop.send, Producer.send]
          split
          · exact List.mem_append_left _ hn
          · exact hn
        · exact .inr (.inr (by simp [Loop.send, Producer.send, hn]))
      · rw [List.mem_singleton.mp hd]
        refine ⟨s.producer.log.length, failedAt, ?_, by simp [Loop.send, Producer.send]⟩
        cases enqueued with
        | true => exact .inr (.inl (by simp [Loop.send, Producer.send]))
        | false => exact .inr (.inr (by simp [Loop.send, Producer.send]))
  | sentToDlq records hp =>
      simp only [Owed, hp] at h
      obtain ⟨o, done, ho, hsplit, hdone⟩ := h
      rw [List.append_nil] at hsplit
      exact ⟨o, ho, fun d hd => hdone d (hsplit ▸ hd)⟩
  | verified records o hp ho hflush hlatch =>
      simp only [Owed, hp] at h
      obtain ⟨o', ho', hall⟩ := h
      refine .inr ⟨o', ho', fun d hd => ?_⟩
      obtain ⟨n, failedAt, hn, hletter⟩ := hall d hd
      simp only [hflush, hlatch, List.not_mem_nil, Bool.false_eq_true, or_false] at hn
      exact ⟨n, failedAt, hn, hletter⟩
  | ack n hn =>
      refine h.congr rfl rfl rfl (List.subset_append_left ..) ?_
      rintro m (hm | hm | hm)
      · exact .inl (List.mem_append_left _ hm)
      · by_cases hmn : m = n
        · exact .inl (by simp [Producer.ack, hmn])
        · exact .inr (.inl (by simp [Producer.ack, hm, hmn]))
      · exact .inr (.inr hm)
  | fail n hn =>
      exact h.congr rfl rfl rfl (List.Subset.refl _) fun m _ => .inr (.inr rfl)
  | shutdown => exact h.congr rfl rfl rfl (List.Subset.refl _) fun m hm => hm

/-- In every run, whatever the handler does, when a batch is committed each of its records was skipped, or accepted
by the handler, or has an acknowledged dead letter from whose text its topic, partition and offset and the bytes of its
value can be recovered. -/
theorem dead_letters_recoverable {s₀ : Loop M} {ls : List (LoopLabel M)} {records : List Record}
    {offsets : String × ℕ → Option ℕ} {ok : Bool} (h₀ : s₀.Fresh) (h : Run (LoopStep c settings) s₀ ls s)
    (hcommit : LoopStep c settings s (.commit records offsets ok) t) :
    ∀ r ∈ records, decodeJson c r.value = .ok none ∨
      (∃ i v, (decodedOf c records)[i]? = some (r, v) ∧ Accepted s i) ∨
        ∃ n p, n ∈ s.producer.acked ∧ s.producer.log[n]? = some (.deadLetter p) ∧
          recover p.dumps = some (r.topic, r.partition, r.offset, r.value) := by
  have howed : Owed c settings s :=
    h.invariant (I := Owed c settings) (by simp [Owed, h₀.phase]) fun _ _ _ hI hstep => hI.step hstep
  have hp : s.phase = .committing records := by
    cases hcommit with
    | commit _ _ hp => exact hp
  simp only [Owed, hp] at howed
  intro r hr
  have hletter {o : Outcome} {e : Raised} (hall : ∀ d ∈ dlqOf c records o, Delivered c settings s d)
      (hmem : (r, e) ∈ dlqOf c records o) :
      ∃ n p, n ∈ s.producer.acked ∧ s.producer.log[n]? = some (.deadLetter p) ∧
        recover p.dumps = some (r.topic, r.partition, r.offset, r.value) := by
    obtain ⟨n, failedAt, hn, hlog⟩ := hall _ hmem
    exact ⟨n, _, hn, hlog, recover_deadLetterOf (decodeJson_of_mem_dlqOf hmem) failedAt e⟩
  cases hdecode : decodeJson c r.value with
  | error e =>
      refine .inr (.inr ?_)
      have hmem : (r, e) ∈ undecodableOf c records := mem_undecodableOf.mpr ⟨hr, hdecode⟩
      rcases howed with ⟨-, hund⟩ | ⟨o, -, hall⟩
      · rw [hund] at hmem
        cases hmem
      · exact hletter hall (List.mem_append_left _ hmem)
  | ok value =>
      cases value with
      | none => exact .inl rfl
      | some v =>
          refine .inr ?_
          have hmem : (r, v) ∈ decodedOf c records := List.mem_filterMap.mpr ⟨r, hr, by rw [hdecode]⟩
          rcases howed with ⟨hdec, -⟩ | ⟨o, ho, hall⟩
          · rw [hdec] at hmem
            cases hmem
          · obtain ⟨i, hi⟩ := List.mem_iff_getElem?.mp hmem
            cases o with
            | raised e => exact .inr (hletter hall (mem_dlqOf.mpr (.inr ⟨i, v, hi, .inl rfl⟩)))
            | returned failures =>
                cases hf : failures i with
                | none => exact .inl ⟨i, v, hi, failures, ho, hf⟩
                | some e => exact .inr (hletter hall (mem_dlqOf.mpr (.inr ⟨i, v, hi, .inr ⟨failures, rfl, hf⟩⟩)))

end

/-- Two bytes of poison are committed past, and can be recovered. -/
theorem poison_recovered :
    ∃ ls s t, Run (LoopStep LoopSample.byteCodec LoopSample.detection) LoopSample.start ls s ∧
      LoopStep LoopSample.byteCodec LoopSample.detection s
        (.commit [LoopSample.poison 1] (commitOffsets [LoopSample.poison 1]) true) t ∧
      ∃ n p, n ∈ s.producer.acked ∧ s.producer.log[n]? = some (.deadLetter p) ∧
        recover p.dumps = some ("tx-events", 0, 0, some [255, 255]) := by
  have hpoll : LoopStep LoopSample.byteCodec LoopSample.detection LoopSample.start (.poll [LoopSample.poison 1]) _ :=
    .poll [LoopSample.poison 1] rfl rfl (by simp) (by simp [Ascending, LoopSample.start]) (LoopSample.poison_decodes 1)
      (.inr (List.cons_ne_nil (LoopSample.poison 1, LoopSample.undecodable) []))
  have hrun : ∃ ls s, Run (LoopStep LoopSample.byteCodec LoopSample.detection) LoopSample.start ls s ∧
      s.phase = .committing [LoopSample.poison 1] :=
    ⟨_, _, .cons hpoll
      (.cons (.noHandler [LoopSample.poison 1] rfl rfl)
      (.cons (.sendToDlq [LoopSample.poison 1] (LoopSample.poison 1) LoopSample.undecodable [] "" true rfl)
      (.cons (.ack 0 (by decide))
      (.cons (.sentToDlq [LoopSample.poison 1] rfl)
      (.single (.verified [LoopSample.poison 1] (.returned fun _ => none) rfl rfl rfl rfl)))))), rfl⟩
  obtain ⟨ls, s, h, hp⟩ := hrun
  have hcommit : LoopStep LoopSample.byteCodec LoopSample.detection s (.commit _ _ true) _ := .commit _ true hp
  rcases dead_letters_recoverable LoopSample.start_fresh h hcommit (LoopSample.poison 1) (by simp) with
    hskipped | ⟨i, v, hi, -⟩ | hletter
  · cases hskipped
  · cases hi
  · exact ⟨ls, s, _, h, hcommit, hletter⟩

end Rtace
