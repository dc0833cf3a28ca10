/-
# Decimal numbers

`digits n` is the decimal text of `n` without leading zeros. `value? s` reads a
non-empty run of ASCII digits, leading zeros allowed. Reading what was written
gives the number back (`value?_digits`).
-/

namespace NightlyRelease
namespace Text
namespace Decimal

/-- The character of a digit below ten. -/
def digit (n : Nat) : Char := Char.ofNat (48 + n)

/-- Whether a character is an ASCII digit. -/
def isDigit (c : Char) : Bool := 48 ≤ c.toNat && c.toNat ≤ 57

/-- The decimal text of a number, without leading zeros. -/
def digits (n : Nat) : List Char :=
  if n < 10 then [digit n] else digits (n / 10) ++ [digit (n % 10)]
termination_by n

/-- The value of an ASCII digit. -/
def digitValue (c : Char) : Nat := c.toNat - 48

/-- The number that a run of ASCII digits spells. -/
def value (s : List Char) : Nat := s.foldl (fun n c => 10 * n + digitValue c) 0

/-- The number that a non-empty run of ASCII digits spells. -/
def value? (s : List Char) : Option Nat :=
  if s = [] then none else if s.all isDigit then some (value s) else none

/-- The decimal text of a number, as a string. -/
def text (n : Nat) : String := String.ofList (digits n)

/-- The decimal text of an integer; a minus sign stands before the digits. -/
def signed (n : Int) : String :=
  if n < 0 then "-" ++ text n.natAbs else text n.natAbs

theorem toNat_digit {n : Nat} (h : n < 10) : (digit n).toNat = 48 + n := by
  have : ∀ m : Fin 10, (digit m.val).toNat = 48 + m.val := by decide
  exact this ⟨n, h⟩

theorem isDigit_digit {n : Nat} (h : n < 10) : isDigit (digit n) = true := by
  simp [isDigit, toNat_digit h]; omega

theorem digitValue_digit {n : Nat} (h : n < 10) : digitValue (digit n) = n := by
  rw [digitValue, toNat_digit h]; omega

theorem value_append_singleton (s : List Char) (c : Char) :
    value (s ++ [c]) = 10 * value s + digitValue c := by
  simp [value]

theorem digits_ne_nil (n : Nat) : digits n ≠ [] := by
  rw [digits]; split <;> simp

theorem all_isDigit_digits (n : Nat) : (digits n).all isDigit = true := by
  induction n using Nat.strongRecOn with
  | _ n ih =>
    rw [digits]
    split
    · next h => simp [isDigit_digit h]
    · next h =>
      have h10 : n % 10 < 10 := Nat.mod_lt _ (by omega)
      simpa [isDigit_digit h10] using ih (n / 10) (by omega)

theorem value_digits (n : Nat) : value (digits n) = n := by
  induction n using Nat.strongRecOn with
  | _ n ih =>
    rw [digits]
    split
    · next h => simpa [value] using digitValue_digit h
    · next h =>
      have h10 : n % 10 < 10 := Nat.mod_lt _ (by omega)
      rw [value_append_singleton, ih (n / 10) (by omega), digitValue_digit h10]
      omega

/-- Reading the decimal text of a number gives the number. -/
theorem value?_digits (n : Nat) : value? (digits n) = some n := by
  simp only [value?, digits_ne_nil, if_false, all_isDigit_digits, if_true, value_digits]

end Decimal
end Text
end NightlyRelease
