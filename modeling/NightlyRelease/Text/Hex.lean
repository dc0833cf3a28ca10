/-
# Hexadecimal digits

Texts of numbers in base sixteen, in lower case as in code points and object
names, and in upper case as in percent encodings, and the value of a digit in
either case.
-/

namespace NightlyRelease
namespace Text
namespace Hex

/-- The lower case digit of a number below sixteen. -/
def digit (n : Nat) : Char := Char.ofNat (if n < 10 then 48 + n else 87 + n)

/-- The upper case digit of a number below sixteen. -/
def upperDigit (n : Nat) : Char := Char.ofNat (if n < 10 then 48 + n else 55 + n)

/-- The value of a hexadecimal digit of either case. -/
def value? (c : Char) : Option Nat :=
  let n := c.toNat
  if 48 ≤ n ∧ n ≤ 57 then some (n - 48)
  else if 97 ≤ n ∧ n ≤ 102 then some (n - 87)
  else if 65 ≤ n ∧ n ≤ 70 then some (n - 55)
  else none

/-- The hexadecimal text of a number in lower case, without leading zeros. -/
def digits (n : Nat) : List Char :=
  if n < 16 then [digit n] else digits (n / 16) ++ [digit (n % 16)]
termination_by n

/-- The hexadecimal text of a number, filled up with zeros to a width. -/
def padded (width n : Nat) : List Char :=
  let s := digits n
  List.replicate (width - s.length) '0' ++ s

/-- The two upper case digits of a byte. -/
def upperByte (b : UInt8) : List Char := [upperDigit (b.toNat / 16), upperDigit (b.toNat % 16)]

theorem value?_upperDigit {n : Nat} (h : n < 16) : value? (upperDigit n) = some n := by
  have : ∀ m : Fin 16, value? (upperDigit m.val) = some m.val := by decide
  exact this ⟨n, h⟩

end Hex
end Text
end NightlyRelease
