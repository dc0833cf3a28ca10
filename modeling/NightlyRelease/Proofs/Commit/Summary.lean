/-
# The summary of a stored message, line by line

A stored message is summed up byte by byte, with a run of blanks held back until it
is known what follows (`Git.Summary.fold`).  For the bytes of a text this comes to a
rule on its lines: the first line after the leading line feeds is trimmed at its end,
each further line of the paragraph at both ends, and spaces join them
(`fold_encode`, `toList_subjectOf`).  All this knows ASCII blanks only.
-/

import NightlyRelease.Git.Summary
import NightlyRelease.Proofs.Text.Encoding
import NightlyRelease.Proofs.Text.Trimming
import NightlyRelease.Text.Lines

namespace NightlyRelease

open Text

theorem Subject.joinLines_append_left (a l : List Char) (ls : List (List Char)) :
    joinLines ((a ++ l) :: ls) = a ++ joinLines (l :: ls) := by
  cases ls <;> simp [joinLines]

namespace Git
namespace Summary

variable {c : Char} {b : UInt8} {run cs p s : List Char} {ps : List (List Char)}

/-- Whether a character is an ASCII blank within a line. -/
def isGapChar (c : Char) : Bool :=
  c == '\t' || c == '\x0b' || c == '\x0c' || c == '\r' || c == ' '

/-- A line without what is no ASCII blank. -/
def isGapLine (l : List Char) : Bool := l.all isGapChar

theorem isBlank_of_isGapChar (h : isGapChar c = true) : Text.isBlank c = true := by
  simp only [isGapChar, Bool.or_eq_true, beq_iff_eq] at h
  rcases h with (((rfl | rfl) | rfl) | rfl) | rfl <;> decide

theorem trim_of_isGapLine (h : isGapLine s = true) : trim s = [] := by
  rw [trim_eq_nil_iff, isAllBlank, List.all_eq_true]
  exact fun c hc => isBlank_of_isGapChar (List.all_eq_true.1 h c hc)

/-- The blank bytes by their numbers. -/
theorem toNat_of_isBlank (h : isBlank b = true) :
    b.toNat = 9 ∨ b.toNat = 11 ∨ b.toNat = 12 ∨ b.toNat = 13 ∨ b.toNat = 32 ∨ b.toNat = 10 := by
  simp only [isBlank, isGap, lineFeed, Bool.or_eq_true, beq_iff_eq] at h
  rcases h with ((((rfl | rfl) | rfl) | rfl) | rfl) | rfl <;> decide

/-- How a character looks in bytes: a line feed and a blank are one byte of that kind, and no byte
of another character is blank. -/
theorem encodeChar_cases (c : Char) :
    c = '\n' ∧ encodeChar c = [lineFeed] ∨
      (c ≠ '\n' ∧ isGapChar c = true) ∧ (∃ b, encodeChar c = [b] ∧ isGap b = true) ∨
      (c ≠ '\n' ∧ isGapChar c = false) ∧ ∀ b ∈ encodeChar c, isBlank b = false := by
  by_cases hfeed : c = '\n'
  · exact .inl ⟨hfeed, by rw [hfeed]; rfl⟩
  refine .inr ?_
  cases hgap : isGapChar c with
  | true =>
    refine .inl ⟨⟨hfeed, rfl⟩, ?_⟩
    simp only [isGapChar, Bool.or_eq_true, beq_iff_eq] at hgap
    rcases hgap with (((rfl | rfl) | rfl) | rfl) | rfl <;> exact ⟨_, rfl, by decide⟩
  | false =>
    refine .inr ⟨⟨hfeed, rfl⟩, fun b hb => Bool.eq_false_iff.2 fun hblank => ?_⟩
    have hnumber := toNat_of_isBlank hblank
    by_cases hascii : c.toNat < 0x80
    · rw [encodeChar_of_ascii hascii, List.mem_singleton] at hb
      have hb : b.toNat = c.toNat := by rw [hb, UInt8.toNat_ofNat']; omega
      have hc : c = Char.ofNat b.toNat := by rw [hb, Char.ofNat_toNat]
      rcases hnumber with h | h | h | h | h | h <;> rw [h] at hc <;> subst hc
      all_goals first | exact hfeed rfl | cases hgap
    · have := ascii_le_of_mem_encodeChar (Nat.not_lt.1 hascii) hb
      omega

/-! ### The fold -/

/-- What becomes of a line after a run of blanks: if the run holds a line feed, the line is a
further one and follows a space. -/
def lineAfter (run l : List Char) : List Char :=
  if '\n' ∈ run then ' ' :: trimBy isGapChar l else (run ++ l).rdropWhile isGapChar

/-- The lines until the paragraph ends. -/
def further (ls : List (List Char)) : List (List Char) := ls.takeWhile (!isGapLine ·)

theorem further_of_gap {l : List Char} (h : isGapLine l = true) : further (l :: ps) = [] :=
  List.takeWhile_cons_of_neg (by simp [h])

theorem further_cons {l : List Char} (h : isGapLine l = false) :
    further (l :: ps) = l :: further ps :=
  List.takeWhile_cons_of_pos (by simp [h])

/-- A run of blanks as it is held back. -/
def IsRun (run : List Char) : Prop := ∀ c ∈ run, c = '\n' ∨ isGapChar c = true

theorem isRun_nil : IsRun [] := fun _ h => absurd h List.not_mem_nil

/-- A paragraph ends at a line feed that no further line follows. -/
theorem endsParagraph_encode (hp : pieces s = p :: ps) :
    endsParagraph (encode s) = isGapLine p := by
  induction s generalizing p ps with
  | nil =>
    cases hp
    rfl
  | cons c s ih =>
    obtain ⟨q, qs, hq⟩ := exists_pieces s
    rcases encodeChar_cases c with ⟨rfl, hbytes⟩ | ⟨⟨hfeed, hgap⟩, b, hbytes, hb⟩ |
      ⟨⟨hfeed, hgap⟩, hbytes⟩
    · cases (pieces_feed s).symm.trans hp
      rw [encode_cons, hbytes]
      rfl
    · cases (pieces_cons hfeed hq).symm.trans hp
      have hskip : endsParagraph (b :: encode s) = endsParagraph (encode s) := by
        rw [endsParagraph, List.dropWhile_cons_of_pos hb, endsParagraph]
      rw [encode_cons, hbytes, List.singleton_append, hskip, ih hq, isGapLine, isGapLine,
        List.all_cons, hgap, Bool.true_and]
    · cases (pieces_cons hfeed hq).symm.trans hp
      obtain ⟨b, bs, hb⟩ := List.exists_cons_of_ne_nil (encodeChar_ne_nil c)
      have hblank := hbytes b (hb ▸ List.mem_cons_self)
      simp only [isBlank, Bool.or_eq_false_iff] at hblank
      rw [encode_cons, hb, List.cons_append, endsParagraph,
        List.dropWhile_cons_of_neg (by simp [hblank.1]), isGapLine, List.all_cons, hgap,
        Bool.false_and]
      exact hblank.2

theorem lineFeed_mem_encode : lineFeed ∈ encode s ↔ '\n' ∈ s := mem_encode_iff (by decide)

/-- Between two words, a run of blanks stays or becomes a space. -/
theorem joint_encode (run : List Char) :
    joint (encode run) = encode (if '\n' ∈ run then [' '] else run) := by
  rw [joint]
  by_cases h : '\n' ∈ run
  · rw [if_pos (lineFeed_mem_encode.2 h), if_pos h]
    rfl
  · rw [if_neg (mt lineFeed_mem_encode.1 h), if_neg h]

section

variable {held r : List UInt8}

theorem fold_feed_of_ends (h : endsParagraph r = true) : fold held (lineFeed :: r) = [] := by
  rw [fold, h]
  rfl

theorem fold_feed (h : endsParagraph r = false) :
    fold held (lineFeed :: r) = fold (held ++ [lineFeed]) r := by
  rw [fold, h]
  rfl

theorem fold_gap (h : isGap b = true) : fold held (b :: r) = fold (held ++ [b]) r := by
  have hfeed : (b == lineFeed) = false := by
    rw [beq_eq_false_iff_ne]
    rintro rfl
    cases h
  rw [fold, hfeed, isBlank, h]
  rfl

theorem fold_word (h : isBlank b = false) : fold held (b :: r) = joint held ++ b :: fold [] r := by
  have hfeed : (b == lineFeed) = false := (Bool.or_eq_false_iff.1 h).2
  rw [fold, hfeed, h]
  rfl

/-- The bytes of one character stay together. -/
theorem fold_word_append {bs : List UInt8} (h : ∀ b ∈ bs, isBlank b = false) :
    fold [] (bs ++ r) = bs ++ fold [] r := by
  induction bs with
  | nil => rfl
  | cons b bs ih =>
    rw [List.cons_append, fold_word (h b List.mem_cons_self),
      ih fun b hb => h b (List.mem_cons_of_mem _ hb)]
    rfl

end

theorem lineAfter_nil (hrun : IsRun run) (hopen : '\n' ∉ run) : lineAfter run [] = [] := by
  rw [lineAfter, if_neg hopen, List.append_nil, List.rdropWhile_eq_nil_iff]
  exact fun c hc => (hrun c hc).resolve_left fun h => hopen (h ▸ hc)

/-- A blank joins the run. -/
theorem lineAfter_gap (hgap : isGapChar c = true) (hfeed : c ≠ '\n') (l : List Char) :
    lineAfter (run ++ [c]) l = lineAfter run (c :: l) := by
  simp only [lineAfter, List.mem_append, List.mem_singleton, hfeed.symm, or_false,
    trimBy_cons_of_pos hgap, List.append_assoc, List.singleton_append]

/-- A word ends the run. -/
theorem lineAfter_word (hgap : isGapChar c = false) (l : List Char) :
    lineAfter run (c :: l) = (if '\n' ∈ run then [' '] else run) ++ c :: lineAfter [] l := by
  rw [lineAfter, trimBy_cons_of_neg hgap, rdropWhile_append_cons_of_neg hgap]
  by_cases h : '\n' ∈ run
  · rw [if_pos h, if_pos h]
    rfl
  · rw [if_neg h, if_neg h]
    rfl

/-- **The fold of a text is a rule on its lines.** -/
theorem fold_encode (hrun : IsRun run) (hp : pieces s = p :: ps)
    (hopen : '\n' ∈ run → isGapLine p = false) :
    fold (encode run) (encode s) =
      encode (Subject.joinLines (lineAfter run p :: (further ps).map (trimBy isGapChar))) := by
  -- by induction on the text, whose first piece is the rest of a line after the run
  induction s generalizing run p ps with
  | nil =>
    cases hp
    have hfeed : '\n' ∉ run := fun h => nomatch hopen h
    rw [lineAfter_nil hrun hfeed]
    rfl
  | cons c s ih =>
    obtain ⟨q, qs, hq⟩ := exists_pieces s
    rcases encodeChar_cases c with ⟨rfl, hbytes⟩ | ⟨⟨hfeed, hgap⟩, b, hbytes, hb⟩ |
      ⟨⟨hfeed, hgap⟩, hbytes⟩
    · obtain ⟨rfl, rfl⟩ := List.cons.inj ((pieces_feed s).symm.trans hp)
      have hout : '\n' ∉ run := fun h => nomatch hopen h
      rw [encode_cons, hbytes, List.singleton_append, lineAfter_nil hrun hout, hq]
      cases hgapline : isGapLine q with
      | true =>
        rw [fold_feed_of_ends (by rw [endsParagraph_encode hq, hgapline]), further_of_gap hgapline]
        rfl
      | false =>
        have hrun' : IsRun (run ++ ['\n']) := by
          intro d hd
          rcases List.mem_append.1 hd with hd | hd
          · exact hrun d hd
          · exact .inl (List.mem_singleton.1 hd)
        have hheld : encode run ++ [lineFeed] = encode (run ++ ['\n']) := by
          rw [encode_append]
          rfl
        have hspace : lineAfter (run ++ ['\n']) q = [' '] ++ trimBy isGapChar q :=
          if_pos (List.mem_append_right _ List.mem_cons_self)
        rw [fold_feed (by rw [endsParagraph_encode hq, hgapline]), hheld,
          ih hrun' hq fun _ => hgapline, hspace, Subject.joinLines_append_left,
            further_cons hgapline]
        rfl
    · obtain ⟨rfl, rfl⟩ := List.cons.inj ((pieces_cons hfeed hq).symm.trans hp)
      have hrun' : IsRun (run ++ [c]) := by
        intro d hd
        rcases List.mem_append.1 hd with hd | hd
        · exact hrun d hd
        · exact .inr (List.mem_singleton.1 hd ▸ hgap)
      have hheld : encode run ++ [b] = encode (run ++ [c]) := by
        rw [encode_append, encode_cons, hbytes, encode_nil, List.append_nil]
      have hopen' : '\n' ∈ run ++ [c] → isGapLine q = false := by
        intro h
        rcases List.mem_append.1 h with h | h
        · simpa [isGapLine, hgap] using hopen h
        · exact absurd (List.mem_singleton.1 h).symm hfeed
      rw [encode_cons, hbytes, List.singleton_append, fold_gap hb, hheld, ih hrun' hq hopen',
        lineAfter_gap hgap hfeed]
    · obtain ⟨rfl, rfl⟩ := List.cons.inj ((pieces_cons hfeed hq).symm.trans hp)
      have hrest := ih isRun_nil hq fun h => absurd h List.not_mem_nil
      obtain ⟨b, bs, hb⟩ := List.exists_cons_of_ne_nil (encodeChar_ne_nil c)
      rw [hb] at hbytes
      calc fold (encode run) (encode (c :: s))
          = joint (encode run) ++ b :: (bs ++ fold [] (encode s)) := by
            rw [encode_cons, hb, List.cons_append, fold_word (hbytes b List.mem_cons_self),
              fold_word_append fun d hd => hbytes d (List.mem_cons_of_mem _ hd)]
        _ = encode ((if '\n' ∈ run then [' '] else run) ++ [c]) ++ fold [] (encode s) := by
            rw [joint_encode, encode_append, encode_cons, hb, encode_nil, List.append_nil,
              List.append_assoc, List.cons_append]
        _ = _ := by
            rw [← encode_nil, hrest, ← encode_append, lineAfter_word hgap,
              ← Subject.joinLines_append_left, List.append_assoc, List.singleton_append]

theorem encode_dropWhile_feed (s : List Char) :
    (encode s).dropWhile (· == lineFeed) = encode (s.dropWhile (· == '\n')) := by
  induction s with
  | nil => rfl
  | cons c s ih =>
    by_cases hfeed : c = '\n'
    · subst hfeed
      exact ih
    · obtain ⟨b, bs, hb⟩ := List.exists_cons_of_ne_nil (encodeChar_ne_nil c)
      have hne : b ≠ lineFeed := by
        rintro rfl
        exact hfeed ((mem_encodeChar_iff (by decide)).1 (hb ▸ List.mem_cons_self))
      rw [List.dropWhile_cons_of_neg (by simp [hfeed]), encode_cons, hb, List.cons_append,
        List.dropWhile_cons_of_neg (by simp [hne])]

end Summary

open Summary

/-- The pieces of a message without the line feeds in front. -/
def body (message : List Char) : List (List Char) := pieces (message.dropWhile (· == '\n'))

/-- **The subject of a stored message:** the first line without the ASCII blanks at its end, and
the further lines of the paragraph without those at both ends. -/
theorem toList_subjectOf {message : String} {p : List Char} {ps : List (List Char)}
    (hp : body message.toList = p :: ps) :
    (subjectOf (bytes message)).text.toList =
      Subject.joinLines (p.rdropWhile isGapChar :: (further ps).map (trimBy isGapChar)) := by
  have hline : lineAfter [] p = p.rdropWhile isGapChar := rfl
  rw [subjectOf, String.toList_ofList, ofBytes, bytes_eq_encode, encode_dropWhile_feed,
    ← encode_nil, fold_encode isRun_nil hp fun h => absurd h List.not_mem_nil, Utf8.lossy_encode,
    hline]

end Git

end NightlyRelease
