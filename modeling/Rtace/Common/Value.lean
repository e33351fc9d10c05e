import Mathlib.Algebra.Order.Floor.Ring
import Mathlib.Data.Rat.Floor

/-!
# Numbers, documents and errors

Floats are exact rationals or one of the non-numbers `nan`, `inf`, `-inf`. A non-number takes part in
arithmetic as `nan`, and every comparison with it is false. JSON documents are kept as trees: a Redis
string that holds the text of a document is identified with the document.
-/

namespace Rtace

/-- A double: a finite value in exact arithmetic, or a non-number. -/
inductive Flt where
  | num (q : ℚ)
  | nan
  | inf (neg : Bool)
  deriving DecidableEq

namespace Flt

/-- `x / q` for a finite `q`. -/
def divBy : Flt → ℚ → Flt
  | num x, q => num (x / q)
  | _, _ => nan

/-- `x > q`, false on a non-number. -/
def gt : Flt → ℚ → Bool
  | num x, q => decide (q < x)
  | _, _ => false

end Flt

/-- Round to the nearest integer, ties to the even one. -/
def roundHalfEven (q : ℚ) : ℤ :=
  let n := ⌊q⌋
  if q - n < 1 / 2 then n
  else if 1 / 2 < q - n then n + 1
  else if n % 2 = 0 then n else n + 1

/-- `string.format('%.3f', x)` read back as a number. -/
def fmt : Flt → Flt
  | .num q => .num (roundHalfEven (q * 1000) / 1000)
  | x => x

/-- The decimal digits of `n`, padded with zeros to `width`. -/
def padZero (width n : ℕ) : String :=
  let digits := (toString n).toList
  String.ofList (List.replicate (width - digits.length) '0' ++ digits)

/-- Python's `f"{x:.2f}"`. -/
def formatCents : Flt → String
  | .num q =>
      let n := (roundHalfEven (q * 100)).natAbs
      (if q < 0 then "-" else "") ++ toString (n / 100) ++ "." ++ padZero 2 (n % 100)
  | .nan => "nan"
  | .inf neg => if neg then "-inf" else "inf"

/-- A JSON document. -/
inductive Json where
  | null
  | bool (b : Bool)
  | num (x : Flt)
  | str (s : String)
  | arr (xs : List Json)
  | obj (fields : List (String × Json))

/-- A Python dict with string keys. -/
abbrev Dict := List (String × Json)

/-- `d[k] = v`: replace in place, or append. -/
def Dict.insert (d : Dict) (k : String) (v : Json) : Dict :=
  if d.any (·.1 = k) then d.map fun e => if e.1 = k then (k, v) else e else d ++ [(k, v)]

/-- Python exceptions the modelled code can meet, by how the consumer loop classifies them. -/
inductive PyError where
  /-- `redis.exceptions.ConnectionError`, `TimeoutError`, `BusyLoadingError`, `OutOfMemoryError`,
  `ReadOnlyError`. -/
  | redisTransient
  /-- `kafka.errors.KafkaError`. -/
  | kafkaError
  /-- `common.consumer_loop.TransientError`. -/
  | transientError
  /-- `pydantic.ValidationError`. -/
  | validationError
  | valueError
  | attributeError
  | typeError
  /-- Any other exception. -/
  | other
  deriving DecidableEq, Repr

end Rtace
