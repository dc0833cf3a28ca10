/-
# Where two rules for subjects agree

The subject of a stored message knows ASCII blanks only, and keeps the blanks in front
of the first line.  The subject that is folded from the message itself knows all
blanks, trims the first line at both ends, and passes over blank lines before it.  Each
of its lines is a part of one of the lines of the other subject
(`Text.trimBy_infix`), so it is the shorter one if any line differs (`taken_le`), and
the two are equal exactly if no line loses more by the one rule than by the other
(`FoldsAlike`, `subjectOf_eq_ofMessage_iff`).
-/

import NightlyRelease.Proofs.Commit.Summary
import Mathlib.Algebra.GroupWithZero.Nat

namespace NightlyRelease
namespace Subject

open Text Git Git.Summary

variable {message : String} {p : List Char} {ps ls : List (List Char)}

/-! ### Folding, line by line -/

/-- The lines of a subject, trimmed, until a blank one. -/
def taken (ls : List (List Char)) : List (List Char) := (ls.map trim).takeWhile (!·.isEmpty)

/-- The lines of a subject, from the first that is not blank on. -/
def folded (ls : List (List Char)) : List (List Char) :=
  ((ls.map trim).dropWhile List.isEmpty).takeWhile (!·.isEmpty)

theorem taken_of_blank (h : trim p = []) : taken (p :: ps) = [] := by
  rw [taken, List.map_cons, List.takeWhile_cons_of_neg (by simp [h])]

theorem taken_cons (h : trim p ≠ []) : taken (p :: ps) = trim p :: taken ps := by
  rw [taken, List.map_cons, List.takeWhile_cons_of_pos (by simp [h]), taken]

theorem folded_of_blank (h : trim p = []) : folded (p :: ps) = folded ps := by
  rw [folded, List.map_cons, List.dropWhile_cons_of_pos (by simp [h]), folded]

theorem folded_cons (h : trim p ≠ []) : folded (p :: ps) = trim p :: taken ps := by
  rw [folded, List.map_cons, List.dropWhile_cons_of_neg (by simp [h]),
    List.takeWhile_cons_of_pos (by simp [h]), taken]

/-- Line feeds in front are blank lines, over which folding passes. -/
theorem paragraph_eq_folded (message : List Char) : paragraph message = folded (body message) := by
  induction message with
  | nil => rfl
  | cons c r ih =>
    by_cases hfeed : c = '\n'
    · subst hfeed
      exact ih
    · rw [body, List.dropWhile_cons_of_neg (by simp [hfeed])]
      rfl

theorem folded_eq_nil (h : ∀ l ∈ ls, trim l = []) : folded ls = [] := by
  induction ls with
  | nil => rfl
  | cons p ps ih =>
    rw [folded_of_blank (h p List.mem_cons_self)]
    exact ih fun l hl => h l (List.mem_cons_of_mem _ hl)

/-- A folded subject does not start with a blank. -/
theorem joinLines_folded_cases (ls : List (List Char)) :
    (joinLines (folded ls) = [] ∧ ∀ l ∈ ls, trim l = []) ∨
      ∃ c r, joinLines (folded ls) = c :: r ∧ Text.isBlank c = false := by
  induction ls with
  | nil => exact .inl ⟨rfl, nofun⟩
  | cons p ps ih =>
    cases hp : trim p with
    | nil =>
      rw [folded_of_blank hp]
      refine ih.imp_left fun ⟨hempty, hall⟩ => ⟨hempty, ?_⟩
      rintro l (_ | ⟨_, hl⟩)
      · exact hp
      · exact hall l hl
    | cons c r =>
      have hstart : joinLines (folded (p :: ps)) = c :: joinLines (r :: taken ps) := by
        rw [folded_cons (by simp [hp]), hp]
        exact joinLines_append_left [c] r _
      exact .inr ⟨c, _, hstart, isBlank_of_trim_eq_cons hp⟩

/-! ### Lengths -/

/-- How many characters lines take up behind another one. -/
def lengthBehind (ls : List (List Char)) : Nat := (ls.map fun l => l.length + 1).sum

theorem length_joinLines (l : List Char) (ls : List (List Char)) :
    (joinLines (l :: ls)).length = l.length + lengthBehind ls := by
  induction ls generalizing l with
  | nil => rfl
  | cons m ls ih =>
    simp only [joinLines, List.length_append, List.length_cons, ih, lengthBehind, List.map_cons,
      List.sum_cons]
    omega

theorem lengthBehind_cons (l : List Char) (ls : List (List Char)) :
    lengthBehind (l :: ls) = l.length + 1 + lengthBehind ls := rfl

/-- **Folding leaves no more of the further lines,** and if it leaves as much, then each of them is
the same by both rules. -/
theorem taken_le (ls : List (List Char)) :
    lengthBehind (taken ls) ≤ lengthBehind ((further ls).map (trimBy isGapChar)) ∧
      (lengthBehind (taken ls) = lengthBehind ((further ls).map (trimBy isGapChar)) →
        ∀ l ∈ further ls, trim l = trimBy isGapChar l) := by
  induction ls with
  | nil => exact ⟨Nat.le_refl _, fun _ => nofun⟩
  | cons l ls ih =>
    cases hgap : isGapLine l with
    | true =>
      rw [taken_of_blank (trim_of_isGapLine hgap), further_of_gap hgap]
      exact ⟨Nat.le_refl _, fun _ => nofun⟩
    | false =>
      rw [further_cons hgap, List.map_cons, lengthBehind_cons]
      have hinfix : trim l <:+: trimBy isGapChar l :=
        trim_eq_trimBy l ▸ trimBy_infix (fun _ => isBlank_of_isGapChar) l
      have hlength := hinfix.length_le
      by_cases hblank : trim l = []
      · -- folding has ended, and the other rule goes on
        have hnone : lengthBehind [] = 0 := rfl
        rw [taken_of_blank hblank, hnone]
        exact ⟨Nat.zero_le _, fun h => by omega⟩
      · rw [taken_cons hblank, lengthBehind_cons]
        refine ⟨by omega, fun h m hm => ?_⟩
        rcases List.mem_cons.1 hm with rfl | hm
        · exact hinfix.eq_of_length (by omega)
        · exact ih.2 (by omega) m hm

/-- Lines that are the same by both rules are taken by both. -/
theorem taken_eq (h : ∀ l ∈ further ls, trim l = trimBy isGapChar l) :
    taken ls = (further ls).map (trimBy isGapChar) := by
  induction ls with
  | nil => rfl
  | cons l ls ih =>
    cases hgap : isGapLine l with
    | true =>
      rw [taken_of_blank (trim_of_isGapLine hgap), further_of_gap hgap, List.map_nil]
    | false =>
      rw [further_cons hgap] at h ⊢
      have hl := h l List.mem_cons_self
      have hne : trim l ≠ [] := by
        rw [hl, ne_eq, trimBy_eq_nil_iff, ← isGapLine, hgap]
        exact Bool.false_ne_true
      rw [taken_cons hne, hl, ih fun m hm => h m (List.mem_cons_of_mem _ hm), List.map_cons]

/-! ### Agreement -/

/-- The first line of a message that is not empty. -/
def firstLine (message : List Char) : List Char := (body message).headD []

/-- The further lines of the paragraph. -/
def furtherLines (message : List Char) : List (List Char) := further (body message).tail

/-- No line of a message has blanks at its ends on which the two rules differ. -/
structure FoldsAlike (message : List Char) : Prop where
  /-- The first line has no blanks in front of it, and only ASCII blanks behind it. -/
  first : trim (firstLine message) = (firstLine message).rdropWhile isGapChar
  /-- The further lines have only ASCII blanks at their ends. -/
  rest : ∀ l ∈ furtherLines message, trim l = trimBy isGapChar l
  /-- If the first line is blank, all lines are. -/
  blank : isAllBlank (firstLine message) = true → ∀ l ∈ body message, isAllBlank l = true

/-- Whether the lines of a message fold alike can be computed. -/
instance decidableFoldsAlike (message : List Char) : Decidable (FoldsAlike message) :=
  decidable_of_iff (trim (firstLine message) = (firstLine message).rdropWhile isGapChar ∧
      (∀ l ∈ furtherLines message, trim l = trimBy isGapChar l) ∧
      (isAllBlank (firstLine message) = true → ∀ l ∈ body message, isAllBlank l = true))
    ⟨fun ⟨h₁, h₂, h₃⟩ => ⟨h₁, h₂, h₃⟩, fun h => ⟨h.first, h.rest, h.blank⟩⟩

/-- If the first line is blank, then the two subjects are equal only where nothing else is there:
the one that keeps the blanks in front would start with a blank. -/
theorem nothing_of_blank (hblank : trim p = [])
    (h : joinLines (p.rdropWhile isGapChar :: (further ps).map (trimBy isGapChar)) =
      joinLines (folded (p :: ps))) :
    p.rdropWhile isGapChar = [] ∧ further ps = [] ∧ ∀ l ∈ p :: ps, trim l = [] := by
  rcases joinLines_folded_cases (p :: ps) with ⟨hempty, hall⟩ | ⟨c, r, hstart, hword⟩
  · have hlength := congrArg List.length (h.trans hempty)
    rw [length_joinLines, List.length_nil] at hlength
    refine ⟨List.length_eq_zero_iff.1 (by omega), ?_, hall⟩
    cases hfurther : further ps with
    | nil => rfl
    | cons l ls =>
      rw [hfurther, List.map_cons, lengthBehind_cons] at hlength
      omega
  · rw [hstart] at h
    have hc : Text.isBlank c = true := by
      cases hfirst : p.rdropWhile isGapChar with
      | nil =>
        cases hfurther : further ps with
        | nil => rw [hfirst, hfurther] at h; cases h
        | cons l ls =>
          rw [hfirst, hfurther] at h
          rw [← (List.cons.inj h).1]
          rfl
      | cons d t =>
        have hd : d ∈ p := by
          refine (List.rdropWhile_prefix isGapChar p).subset ?_
          rw [hfirst]
          exact List.mem_cons_self
        rw [hfirst] at h
        rw [← (List.cons.inj ((joinLines_append_left [d] t _).symm.trans h)).1]
        exact List.all_eq_true.1 (trim_eq_nil_iff.1 hblank) d hd
    rw [hword] at hc
    cases hc

/-- **The two subjects of a message are equal exactly if all its lines fold alike.** -/
theorem subjectOf_eq_ofMessage_iff :
    subjectOf (bytes message) = ofMessage message ↔ FoldsAlike message.toList := by
  obtain ⟨p, ps, hp⟩ := exists_pieces (message.toList.dropWhile (· == '\n'))
  change body message.toList = p :: ps at hp
  have hfirst : firstLine message.toList = p := by rw [firstLine, hp]; rfl
  have hrest : furtherLines message.toList = further ps := by rw [furtherLines, hp]; rfl
  have htext : subjectOf (bytes message) = ofMessage message ↔
      joinLines (p.rdropWhile isGapChar :: (further ps).map (trimBy isGapChar)) =
        joinLines (folded (p :: ps)) := by
    have hfolded : (ofMessage message).text.toList = joinLines (folded (p :: ps)) := by
      rw [ofMessage, String.toList_ofList, paragraph_eq_folded, hp]
    rw [← toList_subjectOf hp, ← hfolded, String.toList_inj]
    exact ⟨congrArg text, congrArg mk⟩
  have hinfix : trim p <:+: p.rdropWhile isGapChar :=
    trim_eq_trimBy p ▸ trimBy_infix_rdropWhile (fun _ => isBlank_of_isGapChar) p
  rw [htext]
  constructor
  · intro h
    by_cases hblank : trim p = []
    · obtain ⟨h₁, h₂, hall⟩ := nothing_of_blank hblank h
      refine ⟨by rw [hfirst, hblank, h₁], ?_, fun _ l hl => ?_⟩
      · rw [hrest, h₂]
        nofun
      · rw [hp] at hl
        exact trim_eq_nil_iff.1 (hall l hl)
    · have hlength := congrArg List.length h
      rw [folded_cons hblank, length_joinLines, length_joinLines] at hlength
      have hle := hinfix.length_le
      obtain ⟨hle', heq⟩ := taken_le ps
      refine ⟨?_, ?_, fun hall => absurd (trim_eq_nil_iff.2 (hfirst ▸ hall)) hblank⟩
      · rw [hfirst]
        exact hinfix.eq_of_length (by omega)
      · rw [hrest]
        exact heq (by omega)
  · rintro ⟨h₁, h₂, h₃⟩
    rw [hfirst] at h₁ h₃
    rw [hrest] at h₂
    rw [hp] at h₃
    by_cases hblank : trim p = []
    · have hall := h₃ (trim_eq_nil_iff.1 hblank)
      have hnone : further ps = [] := by
        rw [List.eq_nil_iff_forall_not_mem]
        intro l hl
        have hgap : isGapLine l = true := by
          rw [isGapLine, ← trimBy_eq_nil_iff, ← h₂ l hl, trim_eq_nil_iff]
          exact hall l (List.mem_cons_of_mem _ ((List.takeWhile_prefix _).subset hl))
        have hword := List.mem_takeWhile_imp hl
        rw [hgap] at hword
        cases hword
      rw [folded_eq_nil fun l hl => trim_eq_nil_iff.2 (hall l hl), hnone, ← h₁, hblank]
      rfl
    · rw [folded_cons hblank, taken_eq h₂, h₁]

/-- Tabs and carriage returns are the same by both rules, and an indented first line is not. -/
example : FoldsAlike "Fix \r\n\tthe checksum\n\nDetails".toList ∧ ¬ FoldsAlike "  Fix".toList := by
  decide +kernel

end Subject
end NightlyRelease
