/-
# What a subject keeps of a message

A message often starts with a fixed text, its lead, that a phrase follows: a text
on one line without blanks at its ends.  The subject folds the first paragraph
of the message into one line.  The whole lines of the lead are trimmed at both
ends; its last line, on which the phrase stands, only at its start.  A blank line
after the first line that is not blank closes the paragraph, and then the phrase
is no part of the subject (`toList_ofMessage_append`).

So the subject may lose a text that stands in the lead: blanks at its ends, a
line feed in it, or a paragraph before it.  Nothing else can happen to it
(`infix_kept_of_isPhrase`).
-/

import NightlyRelease.Commit.Subject
import NightlyRelease.Proofs.Text.Scanning
import NightlyRelease.Proofs.Text.Trimming

namespace NightlyRelease

namespace Text

variable {s t a b : List Char} {c : Char}

/-- A text on one line that neither starts nor ends with a blank. -/
structure IsPhrase (s : List Char) : Prop where
  no_feed : '\n' ∉ s
  starts : ∃ c r, s = c :: r ∧ isBlank c = false
  ends : ∃ r c, s = r ++ [c] ∧ isBlank c = false

/-! ### Trimming around a phrase -/

theorem trimStart_append_of_starts (h : ∃ c r, s = c :: r ∧ isBlank c = false) :
    trimStart (a ++ s) = trimStart a ++ s := by
  obtain ⟨c, r, rfl, hc⟩ := h
  rw [trimStart, List.dropWhile_append, trimStart]
  split
  · next he =>
    rw [List.isEmpty_iff.1 he, List.dropWhile_cons_of_neg (by simp [hc]), List.nil_append]
  · rfl

theorem trimEnd_append (s t : List Char) :
    trimEnd (s ++ t) = if trimEnd t = [] then trimEnd s else s ++ trimEnd t := by
  simp only [trimEnd_eq_rdropWhile, rdropWhile_append]

theorem trimEnd_append_of_ends (h : ∃ r c, s = r ++ [c] ∧ isBlank c = false) :
    trimEnd (a ++ s) = a ++ s := by
  obtain ⟨r, c, rfl, hc⟩ := h
  have hlast : trimEnd [c] = [c] := by simp [trimEnd, hc]
  rw [← List.append_assoc, trimEnd_append, hlast, if_neg (List.cons_ne_nil _ _)]

/-- A line that ends with a phrase is only trimmed at its start. -/
theorem trim_append_phrase (h : IsPhrase s) : trim (a ++ s) = trimStart a ++ s := by
  rw [trim, trimStart_append_of_starts h.starts, trimEnd_append_of_ends h.ends]

/-- Trimming the start of a line keeps a phrase that stands in it. -/
theorem infix_trimStart (h : IsPhrase s) (hs : s <:+: t) : s <:+: trimStart t := by
  obtain ⟨a, b, rfl⟩ := hs
  obtain ⟨c, r, rfl, hc⟩ := h.starts
  have hstarts : ∃ d u, c :: r ++ b = d :: u ∧ isBlank d = false := ⟨c, r ++ b, rfl, hc⟩
  rw [List.append_assoc, trimStart_append_of_starts hstarts]
  exact ⟨trimStart a, b, by simp⟩

/-- Trimming a line keeps a phrase that stands in it. -/
theorem infix_trim (h : IsPhrase s) (hs : s <:+: t) : s <:+: trim t := by
  obtain ⟨a, b, hab⟩ := infix_trimStart h hs
  obtain ⟨r, c, rfl, hc⟩ := h.ends
  rw [trim, ← hab, trimEnd_append]
  split
  · rw [trimEnd_append_of_ends ⟨r, c, rfl, hc⟩]
    exact ⟨a, [], by simp⟩
  · exact ⟨a, trimEnd b, rfl⟩

/-! ### Pieces around a phrase -/

/-- A text without a line feed goes on with the last piece of what stands before it. -/
theorem pieces_append (hs : '\n' ∉ s) (a : List Char) :
    pieces (a ++ s) = (pieces a).dropLast ++ [(pieces a).getLastD [] ++ s] := by
  induction a with
  | nil =>
    show pieces s = [s]
    induction s with
    | nil => rfl
    | cons c r ih =>
      simp only [List.mem_cons, not_or] at hs
      rw [pieces_cons (Ne.symm hs.1) (ih hs.2)]
  | cons c a ih =>
    obtain ⟨p, ps, hp⟩ := exists_pieces a
    rw [hp] at ih
    by_cases hc : c = '\n'
    · subst hc
      rw [List.cons_append, pieces_feed, pieces_feed, ih, hp]
      simp
    · cases ps with
      | nil => rw [List.cons_append, pieces_cons hc ih, pieces_cons hc hp]; simp
      | cons q qs => rw [List.cons_append, pieces_cons hc ih, pieces_cons hc hp]; simp

theorem exists_pieces_append (hs : '\n' ∉ s) (b : List Char) :
    ∃ p ps, pieces (s ++ b) = (s ++ p) :: ps := by
  induction s with
  | nil => exact exists_pieces b
  | cons c r ih =>
    simp only [List.mem_cons, not_or] at hs
    obtain ⟨p, ps, hp⟩ := ih hs.2
    exact ⟨p, ps, pieces_cons (Ne.symm hs.1) hp⟩

/-- A text without a line feed stands in a piece. -/
theorem exists_piece_of_infix (hs : '\n' ∉ s) (h : s <:+: t) : ∃ p ∈ pieces t, s <:+: p := by
  obtain ⟨a, b, rfl⟩ := h
  rw [List.append_assoc]
  induction a with
  | nil =>
    obtain ⟨p, ps, hp⟩ := exists_pieces_append hs b
    exact ⟨s ++ p, by simp [hp], [], p, rfl⟩
  | cons c a ih =>
    obtain ⟨p, hp, hsp⟩ := ih
    obtain ⟨q, qs, hq⟩ := exists_pieces (a ++ (s ++ b))
    by_cases hc : c = '\n'
    · subst hc
      exact ⟨p, List.mem_cons_of_mem _ hp, hsp⟩
    · rw [List.cons_append, pieces_cons hc hq]
      rw [hq] at hp
      rcases List.mem_cons.1 hp with rfl | hp
      · exact ⟨c :: p, List.mem_cons_self, hsp.trans (List.suffix_cons c p).isInfix⟩
      · exact ⟨p, List.mem_cons_of_mem _ hp, hsp⟩

end Text

namespace Subject

open Text

variable {lead s l r : List Char} {ls : List (List Char)}

/-- The whole lines of a lead, trimmed, from the first that is not blank on. -/
def wholeLines (lead : List Char) : List (List Char) :=
  (((pieces lead).dropLast).map trim).dropWhile List.isEmpty

/-- The last line of a lead, on which the message goes on. -/
def openLine (lead : List Char) : List Char := trimStart ((pieces lead).getLastD [])

/-- Whether a blank line in the lead closes the first paragraph of the message. -/
def isClosed (lead : List Char) : Bool := (wholeLines lead).any List.isEmpty

/-- What the subject keeps of a lead. -/
def kept (lead : List Char) : List Char :=
  joinLines (if isClosed lead then (wholeLines lead).takeWhile (!·.isEmpty)
    else wholeLines lead ++ [openLine lead])

/-- Whether a subject is automated is whether the marker stands in it. -/
theorem isAutomated_iff {s : Subject} {marker : String} :
    s.isAutomated marker = true ↔ marker.toList <:+: s.text.toList := by
  rw [isAutomated, Text.contains_iff]
  exact exists_congr fun a => exists_congr fun b => eq_comm

/-! ### Joining lines -/

theorem joinLines_append (ls : List (List Char)) (l r : List Char) :
    joinLines (ls ++ [l ++ r]) = joinLines (ls ++ [l]) ++ r := by
  induction ls with
  | nil => rfl
  | cons m ls ih =>
    cases ls with
    | nil => simp [joinLines]
    | cons n ls => simpa [joinLines] using ih

/-- Each line stands in what joining makes of the lines. -/
theorem infix_joinLines (h : l ∈ ls) : l <:+: joinLines ls := by
  induction ls with
  | nil => cases h
  | cons m ls ih =>
    cases ls with
    | nil => rw [List.mem_singleton.1 h]; exact List.infix_rfl
    | cons n ls =>
      rw [joinLines]
      rcases List.mem_cons.1 h with rfl | h
      · exact (List.prefix_append l _).isInfix
      · have htail : joinLines (n :: ls) <:+: m ++ ' ' :: joinLines (n :: ls) :=
          ⟨m ++ [' '], [], by simp⟩
        exact (ih h).trans htail

/-- Joining lines adds spaces only. -/
theorem mem_joinLines {c : Char} (h : c ∈ joinLines ls) : c = ' ' ∨ ∃ l ∈ ls, c ∈ l := by
  induction ls with
  | nil => cases h
  | cons m ls ih =>
    cases ls with
    | nil => exact .inr ⟨m, List.mem_cons_self, h⟩
    | cons n ls =>
      rw [joinLines, List.mem_append, List.mem_cons] at h
      rcases h with h | rfl | h
      · exact .inr ⟨m, List.mem_cons_self, h⟩
      · exact .inl rfl
      · exact (ih h).imp_right fun ⟨l, hl, hc⟩ => ⟨l, List.mem_cons_of_mem m hl, hc⟩

/-- The lines of a paragraph are trimmed pieces of the message. -/
theorem exists_piece_of_mem_paragraph {message : List Char} (h : l ∈ paragraph message) :
    ∃ p ∈ pieces message, trim p = l := by
  have hdrop := (List.takeWhile_sublist _).subset h
  exact List.mem_map.1 ((List.dropWhile_sublist _).subset hdrop)

/-- **A subject is one line.** -/
theorem feed_not_mem_ofMessage (message : String) : '\n' ∉ (ofMessage message).text.toList := by
  intro h
  rw [ofMessage, String.toList_ofList] at h
  rcases mem_joinLines h with hspace | ⟨l, hl, hfeed⟩
  · cases hspace
  · obtain ⟨p, hp, rfl⟩ := exists_piece_of_mem_paragraph hl
    obtain ⟨a, b, -, -, hframe⟩ := isFramed_trim p
    refine separator_not_mem hp ?_
    rw [hframe]
    exact List.mem_append_left _ (List.mem_append_right _ hfeed)

/-! ### Leads -/

theorem isClosed_iff : isClosed lead = true ↔ [] ∈ wholeLines lead := by simp [isClosed]

theorem paragraph_append (hs : IsPhrase s) (lead : List Char) :
    paragraph (lead ++ s) = if isClosed lead then (wholeLines lead).takeWhile (!·.isEmpty)
      else wholeLines lead ++ [openLine lead ++ s] := by
  obtain ⟨c, t, rfl, -⟩ := hs.starts
  have hlast : (openLine lead ++ c :: t).isEmpty = false := by simp
  have hdrop : ((((pieces lead).dropLast).map trim) ++ [openLine lead ++ c :: t]).dropWhile
      List.isEmpty = wholeLines lead ++ [openLine lead ++ c :: t] := by
    rw [List.dropWhile_append, wholeLines]
    split
    · next he => rw [List.isEmpty_iff.1 he, List.dropWhile_cons_of_neg (by simp), List.nil_append]
    · rfl
  rw [paragraph, pieces_append hs.no_feed, List.map_append, List.map_singleton,
    trim_append_phrase hs, ← openLine, hdrop]
  split
  · next hclosed =>
    rw [List.takeWhile_append, if_neg]
    intro hlength
    have hall := (List.takeWhile_prefix (fun l : List Char => !l.isEmpty)).eq_of_length hlength
    have hempty := List.mem_takeWhile_imp (hall ▸ isClosed_iff.1 hclosed)
    cases hempty
  · next hclosed =>
    have hall : ∀ l ∈ wholeLines lead, (!l.isEmpty) = true := by
      rintro (_ | _) hl
      · exact absurd (isClosed_iff.2 hl) hclosed
      · rfl
    rw [List.takeWhile_append_of_pos hall, List.takeWhile_cons_of_pos (by simp [hlast]),
      List.takeWhile_nil]

/-- **The subject of a lead and a phrase** is what it keeps of the lead, and the phrase if the
first paragraph goes on until there. -/
theorem toList_ofMessage_append (hs : IsPhrase s) (lead : List Char) :
    (ofMessage (String.ofList (lead ++ s))).text.toList =
      kept lead ++ if isClosed lead then [] else s := by
  rw [ofMessage, String.toList_ofList, String.toList_ofList, paragraph_append hs, kept]
  split
  · rw [List.append_nil]
  · rw [joinLines_append]

/-- **A phrase that stands in a lead is kept,** unless a blank line closes the paragraph. -/
theorem infix_kept_of_isPhrase (hs : IsPhrase s) (hlead : s <:+: lead)
    (hopen : isClosed lead = false) : s <:+: kept lead := by
  obtain ⟨p, hp, hsp⟩ := exists_piece_of_infix hs.no_feed hlead
  have hpieces : pieces lead = (pieces lead).dropLast ++ [(pieces lead).getLastD []] := by
    simpa using pieces_append (s := []) (by simp) lead
  rw [kept, hopen, if_neg Bool.false_ne_true]
  rw [hpieces, List.mem_append, List.mem_singleton] at hp
  rcases hp with hp | rfl
  · have htrim : s <:+: trim p := infix_trim hs hsp
    refine htrim.trans (infix_joinLines (List.mem_append_left _ ?_))
    obtain ⟨c, t, rfl, -⟩ := hs.starts
    have hne : (trim p).isEmpty = false := by
      cases h : trim p with
      | nil => rw [h] at htrim; simp at htrim
      | cons d u => rfl
    have hmem : trim p ∈ ((pieces lead).dropLast).map trim := List.mem_map_of_mem hp
    rw [← List.takeWhile_append_dropWhile (p := List.isEmpty)
      (l := ((pieces lead).dropLast).map trim), List.mem_append] at hmem
    refine hmem.resolve_left fun h => ?_
    rw [List.mem_takeWhile_imp h] at hne
    cases hne
  · exact (infix_trimStart hs hsp).trans
      (infix_joinLines (List.mem_append_right _ (List.mem_singleton.2 rfl)))

end Subject
end NightlyRelease
