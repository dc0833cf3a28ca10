/-
# The lines of a text

A list of texts `AreLines` if each ends with its only line feed and is not
empty; the last may lack the line feed.  These are exactly the lists that cutting
a text gives (`areLines_lines`), and joining them gives the text back and nothing
else (`lines_flatten`).  A line stays a line when a part of it without a line
feed is replaced, and the other lines stay as they are (`AreLines.replace`).
-/

import NightlyRelease.Text.Lines

namespace NightlyRelease
namespace Text

/-- The lists of texts that are the lines of a text. -/
inductive AreLines : List (List Char) → Prop
  | nil : AreLines []
  /-- The last line, without a line feed. -/
  | last {l : List Char} (hne : l ≠ []) (hl : '\n' ∉ l) : AreLines [l]
  /-- A line with its line feed. -/
  | cons {l : List Char} {ls : List (List Char)} (hl : '\n' ∉ l) (hls : AreLines ls) :
    AreLines ((l ++ ['\n']) :: ls)

variable {s a b u v : List Char} {ls ls₁ ls₂ : List (List Char)}

theorem areLines_lines (s : List Char) : AreLines (lines s) := by
  induction s with
  | nil => exact .nil
  | cons c r ih =>
    by_cases hc : c = '\n'
    · subst hc
      rw [lines, if_pos rfl]
      exact .cons (l := []) (by simp) ih
    · rw [lines, if_neg hc]
      generalize lines r = ls at ih
      cases ih with
      | nil => exact .last (by simp) (by simpa using Ne.symm hc)
      | last hne hl => exact .last (by simp) (by simp [Ne.symm hc, hl])
      | cons hl hls => exact .cons (l := c :: _) (by simp [Ne.symm hc, hl]) hls

/-- A text without a line feed is one line, or the start of the first line of what follows. -/
theorem lines_append (hs : '\n' ∉ s) (u : List Char) :
    lines (s ++ u) = match lines u with
      | [] => if s = [] then [] else [s]
      | l :: ls => (s ++ l) :: ls := by
  induction s with
  | nil => cases h : lines u <;> simp [h]
  | cons c r ih =>
    have hc : c ≠ '\n' := fun h => hs (h ▸ List.mem_cons_self)
    rw [List.cons_append, lines, if_neg hc, ih fun h => hs (List.mem_cons_of_mem _ h)]
    cases lines u with
    | nil => by_cases hr : r = [] <;> simp [hr]
    | cons l ls => simp

/-- **Cutting what was joined gives the lines.** -/
theorem lines_flatten (h : AreLines ls) : lines ls.flatten = ls := by
  induction h with
  | nil => rfl
  | last hne hl =>
    have := lines_append hl []
    simpa [lines, hne] using this
  | cons hl _ ih =>
    rw [List.flatten_cons, List.append_assoc, lines_append hl, List.singleton_append, lines,
      if_pos rfl, ih]

/-- **A line stays a line** when a part of it without a line feed is replaced by another one. -/
theorem AreLines.replace (h : AreLines (ls₁ ++ (a ++ u ++ b) :: ls₂)) (hb : b ≠ [])
    (hv : '\n' ∉ v) : AreLines (ls₁ ++ (a ++ v ++ b) :: ls₂) := by
  induction ls₁ with
  | nil =>
    rw [List.nil_append] at h ⊢
    generalize hline : a ++ u ++ b = line at h
    cases h with
    | last hne hl =>
      subst hline
      simp only [List.mem_append, not_or] at hl
      exact .last (by simp [hb]) (by simp [hl, hv])
    | cons hl hls =>
      -- the line feed at the end is the end of what stands after the replaced part
      obtain ⟨b, c, rfl⟩ := (List.eq_nil_or_concat b).resolve_left hb
      rw [List.concat_eq_append, ← List.append_assoc] at hline ⊢
      obtain ⟨rfl, hc⟩ := List.append_inj' hline rfl
      cases hc
      simp only [List.mem_append, not_or] at hl
      exact .cons (by simp [hl, hv]) hls
  | cons l ls₁ ih =>
    rw [List.cons_append] at h ⊢
    generalize hrest : ls₁ ++ (a ++ u ++ b) :: ls₂ = rest at h
    cases h with
    | last hne hl => simp at hrest
    | cons hl hls => exact .cons hl (ih (hrest ▸ hls))

end Text
end NightlyRelease
