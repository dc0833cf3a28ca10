/-
# Sorting by a text

Things that are sorted by a text stand in the order of their texts. Those with
the same text stay in the order in which they were.
-/

namespace NightlyRelease
namespace Text

variable {α : Type} {key : α → String}

/-- Puts an element before the first one whose text does not come before its own. -/
def insertBy (key : α → String) (a : α) : List α → List α
  | [] => [a]
  | b :: l => if key a ≤ key b then a :: b :: l else b :: insertBy key a l

/-- The elements of a list, sorted by their texts. -/
def sortBy (key : α → String) (l : List α) : List α := l.foldr (insertBy key) []

theorem mem_insertBy {a b : α} {l : List α} : b ∈ insertBy key a l ↔ b = a ∨ b ∈ l := by
  induction l with
  | nil => simp [insertBy]
  | cons c l ih =>
    rw [insertBy]
    split
    · simp
    · simp [ih, or_left_comm]

/-- Sorting keeps all elements. -/
@[simp] theorem mem_sortBy {b : α} {l : List α} : b ∈ sortBy key l ↔ b ∈ l := by
  induction l with
  | nil => simp [sortBy]
  | cons a l ih => rw [sortBy, List.foldr_cons, mem_insertBy, ← sortBy, ih, List.mem_cons]

/-- An element is put before those with the same text. -/
theorem filter_insertBy {p : α → Bool} (hp : ∀ a b, p a = true → p b = true → key a = key b)
    (a : α) (l : List α) : (insertBy key a l).filter p = (a :: l).filter p := by
  induction l with
  | nil => rfl
  | cons b l ih =>
    rw [insertBy]
    split
    · rfl
    · next hlt =>
      rw [List.filter_cons, ih]
      cases ha : p a with
      | false => simp [List.filter_cons, ha]
      | true =>
        have hb : p b = false := by
          rw [← Bool.not_eq_true]
          exact fun hb => hlt (hp a b ha hb ▸ String.le_refl _)
        simp [ha, hb]

/-- **Sorting keeps elements with the same text in their order.** -/
theorem filter_sortBy {p : α → Bool} (hp : ∀ a b, p a = true → p b = true → key a = key b)
    (l : List α) : (sortBy key l).filter p = l.filter p := by
  induction l with
  | nil => rfl
  | cons a l ih =>
    rw [sortBy, List.foldr_cons, filter_insertBy hp, ← sortBy, List.filter_cons, ih,
      List.filter_cons]

end Text
end NightlyRelease
