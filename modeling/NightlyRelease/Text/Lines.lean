/-
# Lines

Two ways to cut a text at its line feeds. `pieces` gives what stands between
them, one more piece than there are line feeds; `lines` gives the lines each
with the line feed that ends it, and no line for nothing. A carriage return
never cuts a text.
-/

import NightlyRelease.Text.Search

namespace NightlyRelease
namespace Text

/-- The lines of a text, each with its line feed; only the last may lack one. -/
def lines : List Char → List (List Char)
  | [] => []
  | c :: r =>
    if c = '\n' then [c] :: lines r
    else match lines r with
      | [] => [[c]]
      | l :: ls => (c :: l) :: ls

/-- No character is lost: the lines make up the text. -/
@[simp] theorem flatten_lines (s : List Char) : (lines s).flatten = s := by
  induction s with
  | nil => rfl
  | cons c r ih =>
    by_cases h : c = '\n'
    · simp [lines, h, ih]
    · cases hl : lines r with
      | nil => simp_all [lines]
      | cons l ls => simp_all [lines]

theorem splitOn_ne_nil (sep : Char) (s : List Char) : splitOn sep s ≠ [] := by
  cases s with
  | nil => simp [splitOn]
  | cons c r =>
    by_cases h : c = sep
    · simp [splitOn, h]
    · cases hr : splitOn sep r <;> simp [splitOn, h, hr]

/-- A separator parts a text into two, which are split on their own. -/
theorem splitOn_append (sep : Char) (a b : List Char) :
    splitOn sep (a ++ sep :: b) = splitOn sep a ++ splitOn sep b := by
  induction a with
  | nil => simp [splitOn]
  | cons c r ih =>
    by_cases h : c = sep
    · simp [splitOn, h, ih]
    · cases hr : splitOn sep r with
      | nil => exact absurd hr (splitOn_ne_nil sep r)
      | cons q qs => simp [splitOn, h, ih, hr]

/-- A text that ends with the separator has an empty last part. -/
theorem splitOn_append_separator (sep : Char) (s : List Char) :
    splitOn sep (s ++ [sep]) = splitOn sep s ++ [[]] :=
  splitOn_append sep s []

/-- The parts of a text, with separators between them, make it up. -/
theorem intercalate_splitOn (sep : Char) (s : List Char) :
    [sep].intercalate (splitOn sep s) = s := by
  induction s with
  | nil => rfl
  | cons c r ih =>
    obtain ⟨p, ps, hr⟩ := List.exists_cons_of_ne_nil (splitOn_ne_nil sep r)
    rw [hr] at ih
    by_cases h : c = sep
    · rw [splitOn, if_pos h, hr, List.intercalate_cons_cons, ih, h]
      rfl
    · rw [splitOn, if_neg h, hr]
      cases ps with
      | nil => simpa using ih
      | cons q qs => simpa using ih

/-- A text is known by its parts. -/
theorem splitOn_injective (sep : Char) : Function.Injective (splitOn sep) := fun s t h => by
  rw [← intercalate_splitOn sep s, h, intercalate_splitOn]

/-- No part holds the character at which the text was split. -/
theorem separator_not_mem {sep : Char} {s p : List Char} (h : p ∈ splitOn sep s) : sep ∉ p := by
  induction s generalizing p with
  | nil => simp_all [splitOn]
  | cons c r ih =>
    by_cases hc : c = sep
    · rw [splitOn, if_pos hc, List.mem_cons] at h
      rcases h with rfl | h
      · simp
      · exact ih h
    · rw [splitOn, if_neg hc] at h
      split at h
      · next hp => exact absurd hp (splitOn_ne_nil sep r)
      · next q qs hp =>
        rcases List.mem_cons.mp h with rfl | h
        · simp [Ne.symm hc, ih (hp ▸ List.mem_cons_self)]
        · exact ih (hp ▸ List.mem_cons_of_mem _ h)

/-- The parts of a text between its line feeds, one more than there are line feeds. -/
def pieces (s : List Char) : List (List Char) := splitOn '\n' s

theorem exists_pieces (s : List Char) : ∃ p ps, pieces s = p :: ps :=
  List.exists_cons_of_ne_nil (splitOn_ne_nil '\n' s)

theorem pieces_feed (s : List Char) : pieces ('\n' :: s) = [] :: pieces s := rfl

theorem pieces_cons {c : Char} {s p : List Char} {ps : List (List Char)} (h : c ≠ '\n')
    (hp : pieces s = p :: ps) : pieces (c :: s) = (c :: p) :: ps := by
  rw [pieces] at hp
  rw [pieces, splitOn, if_neg h, hp]

end Text
end NightlyRelease
