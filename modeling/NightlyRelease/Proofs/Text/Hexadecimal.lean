/-
# Hexadecimal texts of numbers

The digits of a number read back as the number (`foldlM_digits`), zeros in front change
nothing (`foldlM_padded`), and a number below `16 ^ k` has at most `k` digits, so
that it fills up to exactly that width (`length_padded`).
-/

import NightlyRelease.Text.Hex
import Mathlib.Algebra.Group.Nat.Defs

namespace NightlyRelease
namespace Text
namespace Hex

variable {n k : Nat} {c : Char}

/-- One step of reading a number digit by digit. -/
def shift (n : Nat) (c : Char) : Option Nat := (value? c).map (16 * n + ·)

theorem value?_digit (h : n < 16) : value? (digit n) = some n := by
  have : ∀ m : Fin 16, value? (digit m.val) = some m.val := by decide
  exact this ⟨n, h⟩

theorem isSome_value?_of_mem_digits (h : c ∈ digits n) : (value? c).isSome = true := by
  induction n using digits.induct with
  | case1 n hn =>
    rw [digits, if_pos hn, List.mem_singleton] at h
    rw [h, value?_digit hn]
    rfl
  | case2 n hn ih =>
    rw [digits, if_neg hn, List.mem_append, List.mem_singleton] at h
    rcases h with h | rfl
    · exact ih h
    · rw [value?_digit (Nat.mod_lt n (by decide))]
      rfl

theorem isSome_value?_of_mem_padded {width : Nat} (h : c ∈ padded width n) :
    (value? c).isSome = true := by
  rcases List.mem_append.1 h with h | h
  · rw [(List.mem_replicate.1 h).2]
    decide
  · exact isSome_value?_of_mem_digits h

/-- **The digits of a number read back as the number.** -/
theorem foldlM_digits (n : Nat) : (digits n).foldlM shift 0 = some n := by
  induction n using digits.induct with
  | case1 n hn =>
    rw [digits, if_pos hn, List.foldlM_cons, shift, value?_digit hn]
    simp
  | case2 n hn ih =>
    have hlast : 16 * (n / 16) + n % 16 = n := Nat.div_add_mod n 16
    rw [digits, if_neg hn, List.foldlM_append, ih]
    simp [shift, value?_digit (Nat.mod_lt n (by decide : 0 < 16)), hlast]

/-- Zeros in front change nothing. -/
theorem foldlM_padded (width n : Nat) : (padded width n).foldlM shift 0 = some n := by
  have hzeros (k : Nat) : (List.replicate k '0').foldlM shift 0 = some 0 := by
    induction k with
    | zero => rfl
    | succ k ih => exact ih
  rw [padded, List.foldlM_append, hzeros]
  exact foldlM_digits n

theorem length_digits_le (h : n < 16 ^ k) (hk : 0 < k) : (digits n).length ≤ k := by
  induction n using digits.induct generalizing k with
  | case1 n hn =>
    rw [digits, if_pos hn]
    exact hk
  | case2 n hn ih =>
    obtain ⟨j, rfl⟩ : ∃ j, k = j + 1 := ⟨k - 1, by omega⟩
    have hj : 0 < j := by
      rcases Nat.eq_zero_or_pos j with rfl | hj
      · exact absurd h hn
      · exact hj
    have hdiv : n / 16 < 16 ^ j := by
      rw [Nat.pow_succ] at h
      omega
    rw [digits, if_neg hn, List.length_append]
    exact Nat.succ_le_succ (ih hdiv hj)

/-- **A number that is not too large fills a width.** -/
theorem length_padded (h : n < 16 ^ k) (hk : 0 < k) : (padded k n).length = k := by
  have := length_digits_le h hk
  rw [padded, List.length_append, List.length_replicate]
  omega

end Hex
end Text
end NightlyRelease
