/-
# Binary floating point numbers and their shortest decimal text

A finite double is `m · 2^e` with `m < 2^53` and `-1074 ≤ e ≤ 971`, and
`m ≥ 2^52` unless `e = -1074`. `ofDecimal` rounds a decimal number to the nearest
one, a tie to the even `m`. `shortest` finds the fewest decimal digits that lie
nearer to the number than to its neighbours: it tries the grids of the powers of
ten from coarse to fine, and on each the two points around the number. All of it
is exact arithmetic on natural numbers.

The text is positional, with a point and at least one digit after it.
-/

import NightlyRelease.Text.Decimal

namespace NightlyRelease
namespace Text

/-- A number of 64 bits in binary floating point. -/
inductive Binary64 where
  /-- `m · 2^e`, or its negative. -/
  | finite (negative : Bool) (m : Nat) (e : Int)
  | infinite (negative : Bool)
  | notANumber
  deriving DecidableEq, Repr

namespace Binary64

/-- `2^n` or `10^n` for a power that is not negative, else one. -/
def up (base : Nat) (n : Int) : Nat := Nat.pow base n.toNat

/-- The power with the opposite exponent, so that `base^n = up base n / down base n`. -/
def down (base : Nat) (n : Int) : Nat := Nat.pow base (-n).toNat

/-- A quotient rounded to the nearest natural number, a tie to the even one. -/
def roundDiv (num den : Nat) : Nat :=
  let q := num / den
  let r := num % den
  if 2 * r < den then q
  else if den < 2 * r then q + 1
  else q + q % 2

/-- The least exponent of a double. -/
def minExponent : Int := -1074

/-- The greatest exponent of a double. -/
def maxExponent : Int := 971

/-- The double nearest to `num / den`, for a positive `num`. -/
def ofQuotient (negative : Bool) (num den : Nat) : Binary64 :=
  let guess : Int := (Nat.log2 num : Int) - Nat.log2 den - 53
  let atGuess := num * down 2 guess / (den * up 2 guess)
  let e := max minExponent (if atGuess < Nat.pow 2 53 then guess else guess + 1)
  let m := roundDiv (num * down 2 e) (den * up 2 e)
  let (m, e) := if m = Nat.pow 2 53 then (Nat.pow 2 52, e + 1) else (m, e)
  if maxExponent < e then .infinite negative else .finite negative m e

/-- The double nearest to `digits · 10^power`. -/
def ofDecimal (negative : Bool) (digits : Nat) (power : Int) : Binary64 :=
  let size : Int := (Decimal.digits digits).length + power
  if digits = 0 ∨ size < -400 then .finite negative 0 minExponent
  else if 400 < size then .infinite negative
  else ofQuotient negative (digits * up 10 power) (down 10 power)

/-- A point `c · 10^p` of a decimal grid that reads back as the positive double `m · 2^e`; the
nearer one of the two points around it, if both do. -/
def onGrid? (m : Nat) (e p : Int) : Option Nat :=
  let lower := if m = Nat.pow 2 52 ∧ minExponent < e then 4 * m - 1 else 4 * m - 2
  let upper := 4 * m + 2
  let unit := up 2 (e - 2) * down 10 p
  let grid := down 2 (e - 2) * up 10 p
  let inside c := if m % 2 = 0 then lower * unit ≤ c * grid ∧ c * grid ≤ upper * unit
    else lower * unit < c * grid ∧ c * grid < upper * unit
  let exact := 4 * m * unit
  let c := exact / grid
  let below := exact - c * grid
  let above := (c + 1) * grid - exact
  if inside c ∧ 0 < c then
    if inside (c + 1) ∧ above < below then some (c + 1) else some c
  else if inside (c + 1) then some (c + 1)
  else none

/-- The coarsest of `fuel` grids, from `10^p` down, with a point that reads back. -/
def search (m : Nat) (e p : Int) : Nat → Nat × Int
  | 0 => (0, 0)
  | fuel + 1 => match onGrid? m e p with
    | some c => (c, p)
    | none => search m e (p - 1) fuel

/-- The fewest digits that read back as a positive double, with their power of ten. -/
def shortest (m : Nat) (e : Int) : Nat × Int :=
  let top : Int := ((Nat.log2 m : Int) + e) * 30103 / 100000 + 2
  search m e top 25

/-- Digits with a power of ten, written with a point. -/
def positional (digits : List Char) (power : Int) : List Char :=
  if 0 ≤ power then digits ++ List.replicate power.toNat '0' ++ ['.', '0']
  else
    let places := (-power).toNat
    let padded := List.replicate (places + 1 - digits.length) '0' ++ digits
    padded.take (padded.length - places) ++ '.' :: padded.drop (padded.length - places)

/-- The shortest positional text of a number. -/
def text : Binary64 → String
  | notANumber => "NaN"
  | infinite negative => if negative then "-inf" else "inf"
  | finite negative m e =>
    let digits :=
      if m = 0 then ['0', '.', '0']
      else
        let (c, p) := shortest m e
        positional (Decimal.digits c) p
    (if negative then "-" else "") ++ String.ofList digits

end Binary64
end Text
end NightlyRelease
