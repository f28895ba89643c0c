import RecordStore.Toml.Node
import RecordStore.Toml.Scan
/-!
# Reading TOML numbers, dates and truth values

Digits may be separated by single underscores. An integer must fit into 64
bits with a sign; a number with a fraction or an exponent must not be too
large for a double, though it may be too small for one. A date or time must
exist.
-/

namespace RecordStore

namespace Toml

/-! ## Digits -/

/-- Reads the digits behind a first one, dropping the underscores between digits. -/
def moreDigits (isDigit : Char → Bool) : List Char → Option (List Char × List Char)
  | [] => some ([], [])
  | ['_'] => none
  | '_' :: d :: rest =>
    if isDigit d then (moreDigits isDigit rest).map fun (ds, rest) => (d :: ds, rest) else none
  | c :: rest =>
    if isDigit c then
      (moreDigits isDigit rest).map fun (ds, rest) => (c :: ds, rest)
    else
      some ([], c :: rest)

/-- Reads at least one digit. -/
def digits (isDigit : Char → Bool) : Reader (List Char)
  | c :: rest =>
    if isDigit c then (moreDigits isDigit rest).map fun (ds, rest) => (c :: ds, rest) else none
  | [] => none

/-- Reads a sign, where there is one: whether it is the negative one. -/
def sign : List Char → Bool × List Char
  | '-' :: rest => (true, rest)
  | '+' :: rest => (false, rest)
  | s => (false, s)

/-- The number that decimal digits stand for. -/
def decimal (ds : List Char) : Nat := numberOf 10 (ds.map fun d => d.toNat - '0'.toNat)

/-- Reads a decimal number with an optional sign. No digit follows a leading zero. -/
def signedDecimal (s : List Char) : Option ((Bool × List Char) × List Char) :=
  let (negative, rest) := sign s
  match rest with
  | '0' :: rest => some ((negative, ['0']), rest)
  | rest => (digits Char.isDigit rest).map fun (ds, rest) => ((negative, ds), rest)

/-! ## Integers -/

/-- The integer with a sign and an absolute value, if it has 64 bits. -/
def int64? (negative : Bool) (n : Nat) : Option Int :=
  let v : Int := if negative then -n else n
  if -(maxInteger : Int) - 1 ≤ v ∧ v ≤ maxInteger then some v else none

/-- Reads the digits of an integer in a base. -/
def basedInteger (base : Nat) (s : List Char) : Option (Node × List Char) :=
  let value? (c : Char) := (hexValue? c).filter (· < base)
  (digits (fun c => (value? c).isSome) s).bind fun (ds, rest) =>
    (int64? false (numberOf base (ds.filterMap value?))).map fun n => (.integer n, rest)

/-- Reads an integer. -/
def integer : Reader Node
  | '0' :: 'x' :: rest => basedInteger 16 rest
  | '0' :: 'o' :: rest => basedInteger 8 rest
  | '0' :: 'b' :: rest => basedInteger 2 rest
  | s =>
    (signedDecimal s).bind fun ((negative, ds), rest) =>
      (int64? negative (decimal ds)).map fun n => (.integer n, rest)

/-! ## Numbers with a fraction or an exponent -/

/-- Reads a fraction: its digits. -/
def fraction : Reader (List Char)
  | '.' :: rest => digits Char.isDigit rest
  | _ => none

/-- Reads an exponent. -/
def exponent : Reader Int
  | c :: rest =>
    if c = 'e' ∨ c = 'E' then
      let (negative, rest) := sign rest
      (digits Char.isDigit rest).map fun (ds, rest) =>
        (if negative then -(decimal ds : Int) else decimal ds, rest)
    else
      none
  | [] => none

/-- Half a unit above the largest double: from here on numbers are rounded to infinity. -/
def doubleLimit : Nat := Nat.pow 2 1024 - Nat.pow 2 970

/-- Whether the digits, scaled by a power of ten, reach the limit of doubles. The number of
digits settles the matter except close to the limit. -/
def overflows (ds : List Char) (exponent : Int) : Bool :=
  let mantissa := decimal ds
  let magnitude := (toString mantissa).length + exponent
  if mantissa = 0 || magnitude < 300 then
    false
  else if 320 < magnitude then
    true
  else if 0 ≤ exponent then
    doubleLimit ≤ mantissa * Nat.pow 10 exponent.toNat
  else
    doubleLimit * Nat.pow 10 (-exponent).toNat ≤ mantissa

/-- Reads a number with a fraction, an exponent or both. -/
def finiteFloat (s : List Char) : Option (Node × List Char) := do
  let ((negative, whole), rest) ← signedDecimal s
  let (part, rest) ← match fraction rest with
    | some (part, rest) => some (part, rest)
    | none => (exponent rest).map fun _ => ([], rest)
  let (scale, rest) := (exponent rest).getD (0, rest)
  if !negative && overflows (whole ++ part) (scale - part.length) then
    none
  else
    some (.float, rest)

/-- Reads infinity or what is not a number. -/
def specialFloat (s : List Char) : Option (Node × List Char) :=
  let rest := (sign s).2
  ((expectAll? ['i', 'n', 'f'] rest).or (expectAll? ['n', 'a', 'n'] rest)).map fun rest =>
    (.float, rest)

/-! ## Dates and times -/

/-- Reads a number of exactly so many digits within bounds. -/
def boundedNumber (count least most : Nat) (s : List Char) : Option (Nat × List Char) :=
  let ds := s.take count
  let n := decimal ds
  if ds.length = count ∧ ds.all Char.isDigit ∧ least ≤ n ∧ n ≤ most then
    some (n, s.drop count)
  else
    none

/-- The number of days in a month. -/
def daysIn (year month : Nat) : Nat :=
  let isLeap := year % 4 = 0 ∧ (year % 100 ≠ 0 ∨ year % 400 = 0)
  if month = 2 then
    if isLeap then 29 else 28
  else if month = 4 ∨ month = 6 ∨ month = 9 ∨ month = 11 then
    30
  else
    31

/-- Reads a date. -/
def date (s : List Char) : Option (List Char) := do
  let (year, s) ← boundedNumber 4 0 9999 s
  let s ← expect? '-' s
  let (month, s) ← boundedNumber 2 1 12 s
  let s ← expect? '-' s
  let (_, s) ← boundedNumber 2 1 (daysIn year month) s
  return s

/-- Reads a time of day, to the second or finer. -/
def timeOfDay (s : List Char) : Option (List Char) := do
  let (_, s) ← boundedNumber 2 0 23 s
  let s ← expect? ':' s
  let (_, s) ← boundedNumber 2 0 59 s
  let s ← expect? ':' s
  let (_, s) ← boundedNumber 2 0 60 s
  match s with
  | '.' :: d :: rest => if d.isDigit then return rest.dropWhile Char.isDigit else none
  | '.' :: [] => none
  | s => return s

/-- Reads the difference of a local time to the universal time, where one is given. -/
def timeOffset : List Char → Option (List Char)
  | [] => some []
  | c :: rest =>
    if c = 'Z' ∨ c = 'z' then
      some rest
    else if c = '+' ∨ c = '-' then do
      let (_, s) ← boundedNumber 2 0 23 rest
      let s ← expect? ':' s
      let (_, s) ← boundedNumber 2 0 59 s
      return s
    else
      some (c :: rest)

/-- Reads the time behind a date, where there is one. -/
def timeBehindDate : List Char → Option (List Char)
  | c :: rest =>
    if c = 'T' ∨ c = 't' ∨ c = ' ' then
      match timeOfDay rest with
      | some s => timeOffset s
      | none => some (c :: rest)
    else
      some (c :: rest)
  | [] => some []

/-- Reads a date, a time of day, or both. -/
def dateTime (s : List Char) : Option (Node × List Char) :=
  (((date s).bind timeBehindDate).or (timeOfDay s)).map fun rest => (.dateTime, rest)

/-! ## Values without parts -/

/-- Reads a truth value. -/
def boolean (s : List Char) : Option (Node × List Char) :=
  match expectAll? ['t', 'r', 'u', 'e'] s with
  | some rest => some (.boolean true, rest)
  | none => (expectAll? ['f', 'a', 'l', 's', 'e'] s).map fun rest => (.boolean false, rest)

/-- Reads a truth value, a date or a number. -/
def bareScalar (s : List Char) : Option (Node × List Char) :=
  (boolean s).or ((dateTime s).or ((finiteFloat s).or ((specialFloat s).or (integer s))))

end Toml

end RecordStore
