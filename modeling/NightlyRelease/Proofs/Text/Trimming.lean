/-
# Trimming by different classes of blanks

What is trimmed off a text depends on which characters count as blank.  If all
blanks of one class are blanks of another one, then the wider class leaves less, and
what it leaves stands within what the narrower one leaves (`trimBy_infix`,
`trimBy_infix_rdropWhile`).  So two texts trimmed by the two classes are equal as
soon as they have the same length.
-/

import NightlyRelease.Text.Blank
import Mathlib.Data.List.DropRight

namespace NightlyRelease
namespace Text

variable {α : Type} {p q : α → Bool} {c : α} {s t : List α}

/-- The text without the characters of a class at its two ends. -/
def trimBy (p : α → Bool) (s : List α) : List α := (s.dropWhile p).rdropWhile p

theorem rdropWhile_append (p : α → Bool) (s t : List α) :
    (s ++ t).rdropWhile p =
      if t.rdropWhile p = [] then s.rdropWhile p else s ++ t.rdropWhile p := by
  rw [List.rdropWhile, List.reverse_append, List.dropWhile_append, List.rdropWhile, List.rdropWhile]
  by_cases h : t.reverse.dropWhile p = []
  · simp [h]
  · simp [h]

theorem rdropWhile_cons_of_neg (h : p c = false) (s : List α) :
    (c :: s).rdropWhile p = c :: s.rdropWhile p := by
  rw [← List.singleton_append, rdropWhile_append, List.rdropWhile_singleton, h]
  by_cases hs : s.rdropWhile p = []
  · simp [hs]
  · simp [hs]

/-- A character that is no blank stays, and so does all before it. -/
theorem rdropWhile_append_cons_of_neg (h : p c = false) (s t : List α) :
    (s ++ c :: t).rdropWhile p = s ++ c :: t.rdropWhile p := by
  rw [rdropWhile_append, rdropWhile_cons_of_neg h, if_neg (List.cons_ne_nil _ _)]

theorem trimBy_cons_of_pos (h : p c = true) (s : List α) : trimBy p (c :: s) = trimBy p s := by
  rw [trimBy, List.dropWhile_cons_of_pos h, trimBy]

theorem trimBy_cons_of_neg (h : p c = false) (s : List α) :
    trimBy p (c :: s) = c :: s.rdropWhile p := by
  rw [trimBy, List.dropWhile_cons_of_neg (by simp [h]), rdropWhile_cons_of_neg h]

theorem trimBy_eq_nil_iff : trimBy p s = [] ↔ s.all p = true := by
  simp only [trimBy, List.rdropWhile_eq_nil_iff, List.all_eq_true]
  constructor
  · intro h
    have hall : ∀ x ∈ s.takeWhile p ++ s.dropWhile p, p x = true := by
      intro x hx
      rcases List.mem_append.1 hx with hx | hx
      · exact List.mem_takeWhile_imp hx
      · exact h x hx
    rwa [List.takeWhile_append_dropWhile] at hall
  · exact fun h x hx => h x ((List.dropWhile_suffix p).subset hx)

/-- What is trimmed off a text stands around what is left of it. -/
theorem exists_trimBy (p : α → Bool) (s : List α) :
    ∃ a b, a.all p = true ∧ b.all p = true ∧ s = a ++ trimBy p s ++ b := by
  refine ⟨s.takeWhile p, (s.dropWhile p).rtakeWhile p, List.all_takeWhile, ?_, ?_⟩
  · exact List.all_eq_true.2 fun c hc => List.mem_rtakeWhile_imp hc
  · rw [trimBy, List.append_assoc, List.rdropWhile_append_rtakeWhile,
      List.takeWhile_append_dropWhile]

/-- Blanks around a text are trimmed off it. -/
theorem trimBy_append_append {a b : List α} (ha : a.all p = true) (hb : b.all p = true)
    (s : List α) : trimBy p (a ++ s ++ b) = trimBy p s := by
  have hend : b.rdropWhile p = [] := List.rdropWhile_eq_nil_iff.2 (List.all_eq_true.1 hb)
  rw [trimBy, List.append_assoc, List.dropWhile_append_of_pos (List.all_eq_true.1 ha),
    List.dropWhile_append, trimBy]
  split
  · next hs =>
    rw [List.isEmpty_iff.1 hs, List.dropWhile_eq_nil_iff.2 (List.all_eq_true.1 hb)]
  · rw [rdropWhile_append, if_pos hend]

/-! ### Two classes -/

theorem dropWhile_suffix_dropWhile (h : ∀ c, p c = true → q c = true) (s : List α) :
    s.dropWhile q <:+ s.dropWhile p := by
  induction s with
  | nil => exact List.suffix_rfl
  | cons c s ih =>
    by_cases hp : p c = true
    · rw [List.dropWhile_cons_of_pos hp, List.dropWhile_cons_of_pos (h c hp)]
      exact ih
    · rw [List.dropWhile_cons_of_neg hp]
      exact List.dropWhile_suffix q

theorem rdropWhile_prefix_rdropWhile (h : ∀ c, p c = true → q c = true) (s : List α) :
    s.rdropWhile q <+: s.rdropWhile p := by
  rw [← List.reverse_suffix]
  simpa only [List.rdropWhile, List.reverse_reverse] using dropWhile_suffix_dropWhile h s.reverse

theorem rdropWhile_suffix_of_suffix (p : α → Bool) (h : s <:+ t) :
    s.rdropWhile p <:+ t.rdropWhile p := by
  obtain ⟨a, rfl⟩ := h
  rw [rdropWhile_append]
  split
  · next hs => rw [hs]; exact List.nil_suffix
  · exact List.suffix_append _ _

/-- The wider class leaves a part of what the narrower one leaves, even if that one is trimmed
off the end only. -/
theorem trimBy_infix_rdropWhile (h : ∀ c, p c = true → q c = true) (s : List α) :
    trimBy q s <:+: s.rdropWhile p :=
  (rdropWhile_prefix_rdropWhile h _).isInfix.trans
    (rdropWhile_suffix_of_suffix p (List.dropWhile_suffix q)).isInfix

/-- **The wider class leaves a part of what the narrower one leaves.** -/
theorem trimBy_infix (h : ∀ c, p c = true → q c = true) (s : List α) :
    trimBy q s <:+: trimBy p s :=
  (rdropWhile_prefix_rdropWhile h _).isInfix.trans
    (rdropWhile_suffix_of_suffix p (dropWhile_suffix_dropWhile h s)).isInfix

/-! ### All blanks -/

theorem trimEnd_eq_rdropWhile (s : List Char) : trimEnd s = s.rdropWhile isBlank := by
  induction s with
  | nil => rfl
  | cons c s ih =>
    rw [← List.singleton_append, rdropWhile_append, List.singleton_append, trimEnd, ih,
      List.rdropWhile_singleton]
    cases s.rdropWhile isBlank with
    | nil => rfl
    | cons d t => rfl

theorem trim_eq_trimBy (s : List Char) : trim s = trimBy isBlank s :=
  trimEnd_eq_rdropWhile _

theorem trim_eq_nil_iff {s : List Char} : trim s = [] ↔ isAllBlank s = true := by
  rw [trim_eq_trimBy, trimBy_eq_nil_iff, isAllBlank]

/-- A text with blanks around it. -/
def IsFramed (core s : List Char) : Prop :=
  ∃ a b, isAllBlank a = true ∧ isAllBlank b = true ∧ s = a ++ core ++ b

theorem isFramed_trim (s : List Char) : IsFramed (trim s) s := by
  rw [trim_eq_trimBy]
  exact exists_trimBy isBlank s

/-- **A text that needs no trimming is left of exactly those texts that are it with blanks
around.** -/
theorem trim_eq_iff_isFramed {core s : List Char} (hcore : trim core = core) :
    trim s = core ↔ IsFramed core s := by
  constructor
  · rintro rfl
    exact isFramed_trim s
  · rintro ⟨a, b, ha, hb, rfl⟩
    rw [trim_eq_trimBy, trimBy_append_append ha hb, ← trim_eq_trimBy, hcore]

/-- A trimmed text does not start with a blank. -/
theorem isBlank_of_trim_eq_cons {c : Char} {s t : List Char} (h : trim s = c :: t) :
    isBlank c = false := by
  obtain ⟨r, hr⟩ := List.rdropWhile_prefix isBlank (s.dropWhile isBlank)
  rw [trim_eq_trimBy, trimBy] at h
  rw [h, List.cons_append] at hr
  have hhead := List.head?_dropWhile_not isBlank s
  rwa [← hr, List.head?_cons] at hhead

end Text
end NightlyRelease
