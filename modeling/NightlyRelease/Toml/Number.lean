/-
# Numbers, dates and times

An integer is decimal, or hexadecimal, octal or binary after `0x`, `0o` or `0b`;
it fits in 64 bits with a sign. A floating point number has a fraction, an
exponent, or both; one that rounds up beyond the largest double is refused.
Single underscores may stand between digits, and a decimal number has no leading
zero. A date must exist in the calendar.
-/

import NightlyRelease.Text.Binary64
import NightlyRelease.Text.Hex
import NightlyRelease.Toml.Reader

namespace NightlyRelease
namespace Toml

/-- Digits of a class, with single underscores between them: their characters without the
underscores. -/
def digitRun (p : Char → Bool) : Reader (List Char)
  | [] => none
  | c :: r =>
    if p c then match r with
      | '_' :: d :: t => if p d then do
            let (ds, rest) ← digitRun p (d :: t)
            return (c :: ds, rest)
          else none
      | ['_'] => none
      | d :: t => if p d then do
            let (ds, rest) ← digitRun p (d :: t)
            return (c :: ds, rest)
          else some ([c], d :: t)
      | [] => some ([c], [])
    else none

/-- A sign, if there is one: whether it is a minus. -/
def sign : List Char → Bool × List Char
  | '-' :: r => (true, r)
  | '+' :: r => (false, r)
  | s => (false, s)

/-- The digits of a decimal number without a sign: a single zero, or digits that start with
another one. -/
def wholeDigits : Reader (List Char)
  | '0' :: r => some (['0'], r)
  | s => digitRun Text.Decimal.isDigit s

/-- The value of digits in a base. -/
def valueIn (base : Nat) (digits : List Char) : Nat :=
  digits.foldl (fun n c => base * n + (Text.Hex.value? c).getD 0) 0

/-- Whether an integer fits in 64 bits with a sign. -/
def fits (n : Int) : Bool := Int64.minValue.toInt ≤ n && n ≤ Int64.maxValue.toInt

/-- An integer that fits. -/
def fitting? (n : Int) (r : List Char) : Option (Int × List Char) :=
  if fits n then some (n, r) else none

/-- Whether a character is a digit in a base up to sixteen. -/
def isDigitIn (base : Nat) (c : Char) : Bool :=
  match Text.Hex.value? c with
  | some n => n < base
  | none => false

/-- Digits in a base other than ten. -/
def basedInteger (base : Nat) : Reader Int := fun s => do
  let (ds, r) ← digitRun (isDigitIn base) s
  fitting? (valueIn base ds) r

/-- An integer. -/
def integer : Reader Int
  | '0' :: 'x' :: r => basedInteger 16 r
  | '0' :: 'o' :: r => basedInteger 8 r
  | '0' :: 'b' :: r => basedInteger 2 r
  | s => do
    let (negative, t) := sign s
    let (ds, r) ← wholeDigits t
    let n : Int := Text.Decimal.value ds
    fitting? (if negative then -n else n) r

/-- The digits after a point; none stand here if there is no point. -/
def fraction : Reader (List Char)
  | '.' :: r => digitRun Text.Decimal.isDigit r
  | s => some ([], s)

/-- The exponent; zero if there is none. -/
def exponent : Reader Int
  | c :: r =>
    if c = 'e' ∨ c = 'E' then do
      let (negative, t) := sign r
      let (ds, r) ← digitRun Text.Decimal.isDigit t
      let n : Int := Text.Decimal.value ds
      return (if negative then -n else n, r)
    else some (0, c :: r)
  | [] => some (0, [])

/-- A floating point number with digits. -/
def decimalFloat : Reader Text.Binary64 := fun s => do
  let (negative, t) := sign s
  let (whole, r) ← wholeDigits t
  let (part, r') ← fraction r
  let (power, r'') ← exponent r'
  let x := Text.Binary64.ofDecimal negative (Text.Decimal.value (whole ++ part))
    (power - part.length)
  if r''.length = r.length ∨ x = .infinite false then none else some (x, r'')

/-- A floating point number. -/
def float : Reader Text.Binary64 := fun s =>
  match sign s with
  | (negative, 'i' :: 'n' :: 'f' :: r) => some (.infinite negative, r)
  | (_, 'n' :: 'a' :: 'n' :: r) => some (.notANumber, r)
  | _ => decimalFloat s

/-- A number of a fixed count of digits, within bounds. -/
def fixedDigits (count low high : Nat) : Reader Nat := fun s =>
  let ds := s.take count
  let n := Text.Decimal.value ds
  if ds.length = count ∧ ds.all Text.Decimal.isDigit ∧ low ≤ n ∧ n ≤ high then
    some (n, s.drop count)
  else none

/-- How many days a month has. -/
def daysIn (year month : Nat) : Nat :=
  if month = 2 then
    if year % 4 = 0 ∧ (year % 100 ≠ 0 ∨ year % 400 = 0) then 29 else 28
  else if month = 4 ∨ month = 6 ∨ month = 9 ∨ month = 11 then 30
  else 31

/-- The text after a date. -/
def date? (s : List Char) : Option (List Char) := do
  let (year, r) ← fixedDigits 4 0 9999 s
  let r ← mark '-' r
  let (month, r) ← fixedDigits 2 1 12 r
  let r ← mark '-' r
  let (_, r) ← fixedDigits 2 1 (daysIn year month) r
  return r

/-- The text after a fraction of a second, if there is one. -/
def secondFraction? : List Char → Option (List Char)
  | '.' :: r => match r.dropWhile Text.Decimal.isDigit with
    | t => if t.length < r.length then some t else none
  | s => some s

/-- The text after a time of day. -/
def time? (s : List Char) : Option (List Char) := do
  let (_, r) ← fixedDigits 2 0 23 s
  let r ← mark ':' r
  let (_, r) ← fixedDigits 2 0 59 r
  let r ← mark ':' r
  let (_, r) ← fixedDigits 2 0 60 r
  secondFraction? r

/-- The text after an offset from universal time, if there is one. -/
def offset? : List Char → Option (List Char)
  | [] => some []
  | c :: r =>
    if c = 'Z' ∨ c = 'z' then some r
    else if c = '+' ∨ c = '-' then do
      let (_, r) ← fixedDigits 2 0 23 r
      let r ← mark ':' r
      let (_, r) ← fixedDigits 2 0 59 r
      return r
    else some (c :: r)

/-- The text after a date, a time, or a date and a time with or without an offset. -/
def moment? (s : List Char) : Option (List Char) :=
  match date? s with
  | none => time? s
  | some (c :: r) =>
    if c = 'T' ∨ c = 't' ∨ c = ' ' then match time? r with
      | some t => offset? t
      | none => some (c :: r)
    else some (c :: r)
  | some [] => some []

end Toml
end NightlyRelease
