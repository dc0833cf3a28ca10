/-
# Runs of characters

A scanner takes the longest run of characters of a class off a text.  What is
left `Stops` the run, and these two facts are all that a proof needs to know:
a text falls apart in the one way in which its first part is of the class and
its second part stops it (`takeWhile_append_stops`, `dropWhile_append_stops`).
A separator stops the run of all other characters (`eq_of_append_separator`).

Trimming takes runs of blanks off both ends, and the decimal text of a number is
the one run of digits with this value that has no leading zero
(`Decimal.digits_value`).
-/

import NightlyRelease.Text.Blank
import NightlyRelease.Text.Decimal
import Mathlib.Data.List.Induction
import Mathlib.Data.List.TakeWhile

namespace NightlyRelease
namespace Text

variable {p : Char → Bool} {s a b : List Char} {c : Char}

/-- The text does not go on with a character of the class. -/
def Stops (p : Char → Bool) (s : List Char) : Prop := ∀ c r, s = c :: r → p c = false

theorem stops_nil : Stops p [] := fun _ _ h => by cases h

theorem stops_cons (h : p c = false) : Stops p (c :: s) := by
  rintro d r hd; cases hd; exact h

theorem stops_dropWhile (p : Char → Bool) (s : List Char) : Stops p (s.dropWhile p) := by
  intro c r h
  have := List.head?_dropWhile_not p s
  rwa [h] at this

theorem Stops.takeWhile_eq_nil (h : Stops p s) : s.takeWhile p = [] := by
  cases s with
  | nil => rfl
  | cons c r => simp [h c r rfl]

theorem Stops.dropWhile_eq_self (h : Stops p s) : s.dropWhile p = s := by
  cases s with
  | nil => rfl
  | cons c r => simp [h c r rfl]

theorem takeWhile_append_stops (ha : ∀ c ∈ a, p c = true) (hb : Stops p b) :
    (a ++ b).takeWhile p = a := by
  rw [List.takeWhile_append_of_pos ha, hb.takeWhile_eq_nil, List.append_nil]

theorem dropWhile_append_stops (ha : ∀ c ∈ a, p c = true) (hb : Stops p b) :
    (a ++ b).dropWhile p = b := by
  rw [List.dropWhile_append_of_pos ha, hb.dropWhile_eq_self]

/-! ### Up to a separator -/

section

variable {d : Char}

theorem forall_bne_of_not_mem (h : d ∉ s) : ∀ c ∈ s, (c != d) = true :=
  fun _ hc => bne_iff_ne.2 fun hd => h (hd ▸ hc)

theorem takeWhile_append_separator (h : d ∉ a) (b : List Char) :
    (a ++ d :: b).takeWhile (· != d) = a :=
  takeWhile_append_stops (forall_bne_of_not_mem h) (stops_cons (by simp))

theorem dropWhile_append_separator (h : d ∉ a) (b : List Char) :
    (a ++ d :: b).dropWhile (· != d) = d :: b :=
  dropWhile_append_stops (forall_bne_of_not_mem h) (stops_cons (by simp))

/-- A text falls apart at its first separator in one way only. -/
theorem eq_of_append_separator {a' b' : List Char} (h : d ∉ a) (h' : d ∉ a')
    (hsame : a ++ d :: b = a' ++ d :: b') : a = a' ∧ b = b' := by
  have htake := takeWhile_append_separator h b
  rw [hsame, takeWhile_append_separator h' b'] at htake
  subst htake
  exact ⟨rfl, (List.cons.inj (List.append_cancel_left hsame)).2⟩

end

/-! ### Trimming -/

theorem trimStart_eq_self (h : ∀ c ∈ s, isBlank c = false) : trimStart s = s := by
  cases s with
  | nil => rfl
  | cons c r => simp [trimStart, h c (by simp)]

theorem trimEnd_eq_self (h : ∀ c ∈ s, isBlank c = false) : trimEnd s = s := by
  induction s with
  | nil => rfl
  | cons c r ih =>
    rw [trimEnd, ih fun d hd => h d (List.mem_cons_of_mem _ hd)]
    cases r with
    | nil => simp [h c (by simp)]
    | cons d t => rfl

/-- A text without blanks has none to trim. -/
theorem trim_eq_self (h : ∀ c ∈ s, isBlank c = false) : trim s = s := by
  rw [trim, trimStart_eq_self h, trimEnd_eq_self h]

theorem mem_trimEnd (h : c ∈ s) (hc : isBlank c = false) : c ∈ trimEnd s := by
  induction s with
  | nil => cases h
  | cons d r ih =>
    rw [trimEnd]
    rcases List.mem_cons.1 h with rfl | h
    · split <;> simp [hc]
    · have hr := ih h
      split
      · next he => rw [he] at hr; cases hr
      · next he => rw [← he]; exact List.mem_cons_of_mem _ hr

/-- Only blanks are trimmed. -/
theorem mem_trim (h : c ∈ s) (hc : isBlank c = false) : c ∈ trim s := by
  refine mem_trimEnd ?_ hc
  rw [← List.takeWhile_append_dropWhile (p := isBlank) (l := s), List.mem_append] at h
  rcases h with h | h
  · exact absurd (List.mem_takeWhile_imp h) (by simp [hc])
  · exact h

/-! ### Digits -/

namespace Decimal

theorem isBlank_of_isDigit (h : isDigit c = true) : isBlank c = false := by
  simp only [isDigit, Bool.and_eq_true, decide_eq_true_eq] at h
  simp only [isBlank, Bool.or_eq_false_iff, Bool.and_eq_false_iff, decide_eq_false_iff_not,
    beq_eq_false_iff_ne]
  omega

theorem digit_digitValue (h : isDigit c = true) : digit (digitValue c) = c := by
  simp only [isDigit, Bool.and_eq_true, decide_eq_true_eq] at h
  rw [digit, digitValue, show 48 + (c.toNat - 48) = c.toNat by omega, Char.ofNat_toNat]

theorem digitValue_lt (h : isDigit c = true) : digitValue c < 10 := by
  simp only [isDigit, Bool.and_eq_true, decide_eq_true_eq] at h
  rw [digitValue]; omega

/-- **A run of digits without a leading zero is the decimal text of its value.** -/
theorem digits_value (hne : s ≠ []) (hd : ∀ c ∈ s, isDigit c = true)
    (hz : ∀ r, s = '0' :: r → r = []) : digits (value s) = s := by
  induction s using List.reverseRecOn with
  | nil => exact absurd rfl hne
  | append_singleton s c ih =>
    have hc : isDigit c = true := hd c (by simp)
    rw [value_append_singleton]
    by_cases hs : s = []
    · subst hs
      rw [digits, if_pos (by simpa [value] using digitValue_lt hc)]
      simp [value, digit_digitValue hc]
    · -- a zero in front of further digits is excluded, so the digits before the last stay canonical
      have hhead : ∀ r, s ≠ '0' :: r := by
        rintro r rfl
        exact absurd (hz (r ++ [c]) rfl) (by simp)
      have hvalue := ih hs (fun d h => hd d (by simp [h])) fun r h => absurd h (hhead r)
      have hpos : value s ≠ 0 := by
        intro h0
        rw [h0, digits] at hvalue
        exact hhead [] hvalue.symm
      have hlt := digitValue_lt hc
      rw [digits, if_neg (by omega), show (10 * value s + digitValue c) / 10 = value s by omega,
        show (10 * value s + digitValue c) % 10 = digitValue c by omega, hvalue,
        digit_digitValue hc]

theorem mem_digits {n : Nat} (h : c ∈ digits n) : isDigit c = true :=
  List.all_eq_true.1 (all_isDigit_digits n) c h

/-- The decimal text of a number has no leading zero. -/
theorem digits_eq_zero_cons {n : Nat} {r : List Char} (h : digits n = '0' :: r) : r = [] := by
  induction n using Nat.strongRecOn generalizing r with
  | _ n ih =>
    rw [digits] at h
    split at h
    · exact (List.cons.inj h).2.symm
    · next hn =>
      cases hq : digits (n / 10) with
      | nil => exact absurd hq (digits_ne_nil _)
      | cons d t =>
        rw [hq, List.cons_append, List.cons.injEq] at h
        obtain ⟨rfl, -⟩ := h
        -- the digits before the last spell a number above zero, so they do not start with a zero
        have ht := ih (n / 10) (by omega) hq
        have := value_digits (n / 10)
        rw [hq, ht] at this
        have : value ['0'] = 0 := rfl
        omega

end Decimal
end Text
end NightlyRelease
