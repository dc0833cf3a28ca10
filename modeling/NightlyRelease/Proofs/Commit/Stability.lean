/-
# What a subject does not depend on

The subject of a message is made of its trimmed lines (`trimmedLines`): blank ones
in front are skipped, and the next blank one ends the paragraph.  So nothing can
show in it that trimming takes off, nor anything before or after the paragraph:
carriage returns at line ends, indentation, blank lines in front, the body
(`Variant`).  The loop guard and the changelog look at subjects only
(`subjects_stable`).

A subject is a phrase, one line without blanks at its ends (`isPhrase_ofMessage`),
and a phrase is its own subject.
-/

import NightlyRelease.LoopGuard
import NightlyRelease.Proofs.Changelog.Document
import Mathlib.Logic.Relation

namespace NightlyRelease

namespace Text

variable {l m m' s : List Char}

theorem pieces_of_line (h : '\n' ∉ l) : pieces l = [l] := pieces_append h []

/-- What stands around a line feed is cut into pieces on its own. -/
theorem pieces_append_feed (a b : List Char) : pieces (a ++ '\n' :: b) = pieces a ++ pieces b :=
  splitOn_append '\n' a b

/-- A trimmed text with anything left does not end with a blank. -/
theorem isBlank_of_trim_eq_append {c : Char} {r : List Char} (h : trim s = r ++ [c]) :
    isBlank c = false := by
  rw [trim_eq_trimBy, trimBy] at h
  have hlast := List.rdropWhile_last_not isBlank (s.dropWhile isBlank) (by simp [h])
  simpa [h] using hlast

/-- What trimming leaves of a line is a phrase, if it leaves anything. -/
theorem isPhrase_trim (hl : '\n' ∉ l) (h : trim l ≠ []) : IsPhrase (trim l) := by
  obtain ⟨a, b, -, -, hframe⟩ := isFramed_trim l
  refine ⟨fun hfeed => hl ?_, ?_, ?_⟩
  · rw [hframe]
    exact List.mem_append_left _ (List.mem_append_right _ hfeed)
  · obtain ⟨c, r, hc⟩ := List.exists_cons_of_ne_nil h
    exact ⟨c, r, hc, isBlank_of_trim_eq_cons hc⟩
  · obtain ⟨r, c, hc⟩ := (List.eq_nil_or_concat (trim l)).resolve_left h
    rw [List.concat_eq_append] at hc
    exact ⟨r, c, hc, isBlank_of_trim_eq_append hc⟩

/-! ### Lines with blanks around them -/

/-- `l'` is `l` with blanks before and behind it, none of which is a line feed. -/
def Pads (l l' : List Char) : Prop :=
  ∃ a b, isAllBlank a = true ∧ isAllBlank b = true ∧ '\n' ∉ a ∧ '\n' ∉ b ∧ l' = a ++ l ++ b

/-- Each line of the second text is one of the first with blanks around it. -/
inductive Padded : List Char → List Char → Prop
  | last {l l' : List Char} (hl : '\n' ∉ l) (h : Pads l l') : Padded l l'
  | line {l l' m m' : List Char} (hl : '\n' ∉ l) (h : Pads l l') (hm : Padded m m') :
    Padded (l ++ '\n' :: m) (l' ++ '\n' :: m')

/-- The text with a carriage return before every line feed. -/
def withReturns (s : List Char) : List Char :=
  s.flatMap fun c => if c = '\n' then ['\r', c] else [c]

theorem Pads.no_feed {l l' : List Char} (h : Pads l l') (hl : '\n' ∉ l) : '\n' ∉ l' := by
  obtain ⟨a, b, -, -, ha, hb, rfl⟩ := h
  simp [ha, hl, hb]

theorem Pads.trim_eq {l l' : List Char} (h : Pads l l') : trim l' = trim l := by
  obtain ⟨a, b, ha, hb, -, -, rfl⟩ := h
  rw [trim_eq_trimBy, trimBy_append_append ha hb, ← trim_eq_trimBy]

/-- A carriage return is a blank behind a line. -/
theorem padded_append_withReturns (hl : '\n' ∉ l) (s : List Char) :
    Padded (l ++ s) (l ++ withReturns s) := by
  -- `l` is what has been read of the line
  induction s generalizing l with
  | nil =>
    refine .last (by simpa using hl) ⟨[], [], rfl, rfl, by simp, by simp, ?_⟩
    simp [withReturns]
  | cons c s ih =>
    rw [withReturns, List.flatMap_cons, ← withReturns]
    by_cases hc : c = '\n'
    · subst hc
      have hpads : Pads l (l ++ ['\r']) := ⟨[], ['\r'], rfl, by decide, by simp, by simp, by simp⟩
      simpa using Padded.line hl hpads (ih (l := []) (by simp))
    · have hline : '\n' ∉ l ++ [c] := by simp [hl, Ne.symm hc]
      simpa [hc] using ih hline

theorem padded_withReturns (s : List Char) : Padded s (withReturns s) :=
  padded_append_withReturns (l := []) (by simp) s

/-! ### Trimmed lines -/

/-- The trimmed lines of a text. -/
def trimmedLines (s : List Char) : List (List Char) := (pieces s).map trim

theorem trimmedLines_append_feed (a b : List Char) :
    trimmedLines (a ++ '\n' :: b) = trimmedLines a ++ trimmedLines b := by
  rw [trimmedLines, pieces_append_feed, List.map_append, trimmedLines, trimmedLines]

theorem trimmedLines_of_line (hl : '\n' ∉ l) : trimmedLines l = [trim l] := by
  rw [trimmedLines, pieces_of_line hl, List.map_singleton]

/-- Blanks around lines do not show in the trimmed lines. -/
theorem Padded.trimmedLines_eq (h : Padded m m') : trimmedLines m' = trimmedLines m := by
  induction h with
  | last hl h => rw [trimmedLines_of_line hl, trimmedLines_of_line (h.no_feed hl), h.trim_eq]
  | line hl h _ ih =>
    rw [trimmedLines_append_feed, trimmedLines_append_feed, trimmedLines_of_line hl,
      trimmedLines_of_line (h.no_feed hl), h.trim_eq, ih]

/-- The pieces hold all characters but the line feeds. -/
theorem exists_mem_piece_iff {c : Char} :
    (∃ p ∈ pieces s, c ∈ p) ↔ c ∈ s ∧ c ≠ '\n' := by
  induction s with
  | nil => simp [pieces, splitOn]
  | cons d r ih =>
    obtain ⟨p, ps, hp⟩ := exists_pieces r
    by_cases hd : d = '\n'
    · subst hd
      rw [pieces_feed]
      simp only [List.mem_cons, exists_eq_or_imp, List.not_mem_nil, false_or, ih]
      exact ⟨fun h => ⟨.inr h.1, h.2⟩, fun h => ⟨h.1.resolve_left h.2, h.2⟩⟩
    · rw [pieces_cons hd hp]
      rw [hp] at ih
      simp only [List.mem_cons, exists_eq_or_imp] at ih ⊢
      rw [or_assoc, ih]
      constructor
      · rintro (rfl | h)
        · exact ⟨.inl rfl, hd⟩
        · exact ⟨.inr h.1, h.2⟩
      · rintro ⟨rfl | h, hne⟩
        · exact .inl rfl
        · exact .inr ⟨h, hne⟩

/-- A text of blanks has blank lines only. -/
theorem eq_nil_of_mem_trimmedLines (hs : isAllBlank s = true) (h : l ∈ trimmedLines s) :
    l = [] := by
  obtain ⟨p, hp, rfl⟩ := List.mem_map.1 h
  rw [trim_eq_nil_iff, isAllBlank, List.all_eq_true]
  exact fun c hc => List.all_eq_true.1 hs c (exists_mem_piece_iff.1 ⟨p, hp, hc⟩).1

/-- A text that holds anything else has a line that is not blank. -/
theorem exists_mem_trimmedLines (hs : isAllBlank s = false) : ∃ l ∈ trimmedLines s, l ≠ [] := by
  obtain ⟨c, hc, hblank⟩ := List.all_eq_false.1 hs
  have hfeed : c ≠ '\n' := by
    rintro rfl
    exact hblank (by decide)
  obtain ⟨p, hp, hcp⟩ := exists_mem_piece_iff.2 ⟨hc, hfeed⟩
  refine ⟨trim p, List.mem_map_of_mem hp, ?_⟩
  rw [ne_eq, trim_eq_nil_iff, isAllBlank, List.all_eq_true]
  exact fun h => hblank (h c hcp)

end Text

namespace Subject

open Text

variable {m m' : String} {ls ls' : List (List Char)} {s : List Char}

/-! ### The first paragraph -/

/-- The lines from the first that is not empty up to the next that is. -/
def firstParagraph (ls : List (List Char)) : List (List Char) :=
  (ls.dropWhile List.isEmpty).takeWhile (!·.isEmpty)

theorem paragraph_eq (s : List Char) : paragraph s = firstParagraph (trimmedLines s) := rfl

theorem ofMessage_congr (h : trimmedLines m'.toList = trimmedLines m.toList) :
    ofMessage m' = ofMessage m := by
  rw [ofMessage, ofMessage, paragraph_eq, paragraph_eq, h]

/-- Empty lines in front do not matter. -/
theorem firstParagraph_append_left (h : ∀ l ∈ ls, l = []) (ls' : List (List Char)) :
    firstParagraph (ls ++ ls') = firstParagraph ls' := by
  have hempty : ∀ l ∈ ls, List.isEmpty l = true := fun l hl => by rw [h l hl]; rfl
  rw [firstParagraph, List.dropWhile_append_of_pos hempty, firstParagraph]

/-- What stands behind an empty line does not matter, if there is a line before it that is not
empty. -/
theorem firstParagraph_append_right (h : ∃ l ∈ ls, l ≠ []) (ls' : List (List Char)) :
    firstParagraph (ls ++ [] :: ls') = firstParagraph ls := by
  have hrest : ls.dropWhile List.isEmpty ≠ [] := by
    obtain ⟨l, hl, hne⟩ := h
    rw [ne_eq, List.dropWhile_eq_nil_iff]
    exact fun hall => hne (List.isEmpty_iff.1 (hall l hl))
  rw [firstParagraph, List.dropWhile_append, if_neg (by simpa using hrest), firstParagraph,
    List.takeWhile_append]
  split
  · next hall =>
    rw [List.takeWhile_cons_of_neg (by simp), List.append_nil]
    exact ((List.takeWhile_prefix _).eq_of_length hall).symm
  · rfl

/-! ### Subjects are phrases -/

theorem isPhrase_joinLines (hne : ls ≠ []) (h : ∀ l ∈ ls, IsPhrase l) :
    IsPhrase (joinLines ls) := by
  induction ls with
  | nil => exact absurd rfl hne
  | cons l ls ih =>
    obtain ⟨hl, hls⟩ := List.forall_mem_cons.1 h
    cases ls with
    | nil => exact hl
    | cons l' ls =>
      have hjoined := ih (List.cons_ne_nil _ _) hls
      obtain ⟨c, r, hc, hfirst⟩ := hl.starts
      obtain ⟨r', c', hc', hlast⟩ := hjoined.ends
      refine ⟨?_, ⟨c, r ++ ' ' :: joinLines (l' :: ls), ?_, hfirst⟩,
        ⟨l ++ ' ' :: r', c', ?_, hlast⟩⟩
      · simp [joinLines, hl.no_feed, hjoined.no_feed]
      · simp [joinLines, hc]
      · simp [joinLines, hc']

/-- **A subject is a phrase,** if there is anything in it. -/
theorem isPhrase_ofMessage (m : String) :
    (ofMessage m).text = "" ∨ IsPhrase (ofMessage m).text.toList := by
  rw [ofMessage, String.toList_ofList]
  by_cases hempty : paragraph m.toList = []
  · exact .inl (by rw [hempty]; rfl)
  · refine .inr (isPhrase_joinLines hempty fun l hl => ?_)
    have hne : l ≠ [] := by
      rintro rfl
      exact absurd (List.mem_takeWhile_imp hl) (by decide)
    obtain ⟨p, hp, rfl⟩ := exists_piece_of_mem_paragraph hl
    exact isPhrase_trim (separator_not_mem hp) hne

/-- A phrase is its own subject. -/
theorem ofMessage_of_isPhrase (h : IsPhrase m.toList) : (ofMessage m).text = m := by
  have hkept := toList_ofMessage_append h []
  rw [List.nil_append, String.ofList_toList] at hkept
  exact String.toList_inj.1 hkept

/-- **A subject is its own subject.** -/
theorem ofMessage_ofMessage (m : String) : ofMessage (ofMessage m).text = ofMessage m := by
  generalize hs : ofMessage m = s
  have htext : (ofMessage s.text).text = s.text := by
    rcases isPhrase_ofMessage m with hempty | hphrase
    · rw [← hs, hempty]
      rfl
    · rw [← hs]
      exact ofMessage_of_isPhrase hphrase
  exact congrArg Subject.mk htext

/-! ### Variants of a message -/

/-- One message is another one with something more that its subject does not show. -/
inductive Variant : String → String → Prop
  /-- All lines end with a carriage return and a line feed. -/
  | returns (m : String) : Variant m (String.ofList (withReturns m.toList))
  /-- Lines are indented, or go on with blanks. -/
  | padded {m m' : String} (h : Padded m.toList m'.toList) : Variant m m'
  /-- Blank lines stand in front. -/
  | preceded {b : String} (hb : isAllBlank b.toList = true) (m : String) :
    Variant m (b ++ "\n" ++ m)
  /-- A body follows what is not blank. -/
  | followed {m : String} (hm : isAllBlank m.toList = false) (body : String) :
    Variant m (m ++ "\n\n" ++ body)

theorem Variant.ofMessage_eq (h : Variant m m') : ofMessage m' = ofMessage m := by
  cases h with
  | returns =>
    refine ofMessage_congr ?_
    rw [String.toList_ofList]
    exact (padded_withReturns m.toList).trimmedLines_eq
  | padded h => exact ofMessage_congr h.trimmedLines_eq
  | @preceded b hb =>
    have hlines : trimmedLines (b ++ "\n" ++ m).toList =
        trimmedLines b.toList ++ trimmedLines m.toList := by
      rw [← trimmedLines_append_feed]
      simp
    rw [ofMessage, paragraph_eq, hlines,
      firstParagraph_append_left fun l hl => eq_nil_of_mem_trimmedLines hb hl, ← paragraph_eq,
      ofMessage]
  | followed hm body =>
    have hlines : trimmedLines (m ++ "\n\n" ++ body).toList =
        trimmedLines m.toList ++ [] :: trimmedLines body.toList := by
      have hfeeds : (m ++ "\n\n" ++ body).toList =
          m.toList ++ '\n' :: ([] ++ '\n' :: body.toList) := by simp
      rw [hfeeds, trimmedLines_append_feed, trimmedLines_append_feed]
      rfl
    rw [ofMessage, paragraph_eq, hlines, firstParagraph_append_right (exists_mem_trimmedLines hm),
      ← paragraph_eq, ofMessage]

theorem ofMessage_of_variants (h : Relation.ReflTransGen Variant m m') :
    ofMessage m' = ofMessage m := by
  induction h with
  | refl => rfl
  | tail _ h ih => rw [h.ofMessage_eq, ih]

/-- **Subjects, and all that is decided by them, are stable.** A subject is a phrase or empty, and
is its own subject. A message keeps its subject whatever is done to it that its subject does not
show; so the guard decides alike, and the changelog is the same. -/
theorem subjects_stable :
    (∀ m, ((ofMessage m).text = "" ∨ IsPhrase (ofMessage m).text.toList) ∧
      ofMessage (ofMessage m).text = ofMessage m) ∧
    (∀ m m', Variant m m' → ofMessage m' = ofMessage m) ∧
    (∀ messages messages', List.Forall₂ (Relation.ReflTransGen Variant) messages messages' →
      ∀ marker minimum,
        LoopGuard.check (messages'.head?.map ofMessage) marker =
          LoopGuard.check (messages.head?.map ofMessage) marker ∧
        Changelog.ofMessages messages' marker minimum =
          Changelog.ofMessages messages marker minimum) := by
  refine ⟨fun m => ⟨isPhrase_ofMessage m, ofMessage_ofMessage m⟩, fun _ _ h => h.ofMessage_eq,
    fun messages messages' h marker minimum => ?_⟩
  have hsubjects : messages'.map ofMessage = messages.map ofMessage := by
    induction h with
    | nil => rfl
    | cons h _ ih => rw [List.map_cons, List.map_cons, ih, ofMessage_of_variants h]
  rw [← List.head?_map, ← List.head?_map, Changelog.ofMessages, Changelog.ofMessages, hsubjects]
  exact ⟨rfl, rfl⟩

namespace Sample

/-- A message with the marker in its body only, with a blank line in front and carriage returns. -/
def returned : String := "\t\r\nFix timing\r\n\r\n-- managed-build"

end Sample

/-- The message is not taken for a nightly commit, like its first paragraph alone. -/
theorem subjects_stable_sample :
    Relation.ReflTransGen Variant "Fix timing" Sample.returned ∧
    LoopGuard.check (some (ofMessage Sample.returned)) "-- managed-build" = .ok .proceed ∧
    (Changelog.ofMessages [Sample.returned] "-- managed-build" 5).entries = ["Fix timing"] := by
  have hbody : Variant "Fix timing" "Fix timing\n\n-- managed-build" :=
    .followed (by decide) "-- managed-build"
  have hblank : Variant "Fix timing\n\n-- managed-build"
      "\t\nFix timing\n\n-- managed-build" := .preceded (b := "\t") (by decide) _
  have hvariants : Relation.ReflTransGen Variant "Fix timing" Sample.returned :=
    .tail (.tail (.single hbody) hblank) (.returns _)
  obtain ⟨hguard, hchangelog⟩ := subjects_stable.2.2 _ _ (.cons hvariants .nil) "-- managed-build" 5
  refine ⟨hvariants, hguard.trans (by decide +kernel), ?_⟩
  rw [hchangelog]
  decide +kernel

end Subject
end NightlyRelease
