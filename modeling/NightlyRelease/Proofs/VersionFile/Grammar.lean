/-
# What a line declares

A line declares a key if it has the form (`Declares`)

    blanks `set(` blanks KEY blanks VALUE blanks `)` anything

with at least one blank after the key and no blank and no `)` in the value.
`declaration?` finds this form by trying places, from the longest run of blanks
back to the shortest.  For a key that does not consist of blanks only one place
can do: the blanks before the key and the blanks with which the key starts make
up the whole run.  So what is found is exactly what is declared
(`declaration?_eq_some_iff`), a line does not declare two keys of one length that
start with the same blanks (`Declares.key_unique`), and another value in place of
the declared one is declared just as well (`Declares.withValue`).
-/

import NightlyRelease.Proofs.Text.Scanning
import NightlyRelease.VersionFile.Declaration

namespace NightlyRelease
namespace VersionFile

open Text

variable {key s r line : List Char} {d : Declaration}

theorem not_isValueChar_of_isBlank {c : Char} (h : isBlank c = true) : isValueChar c = false := by
  simp [isValueChar, h]

theorem not_isBlank_of_isValueChar {c : Char} (h : isValueChar c = true) : isBlank c = false := by
  simp only [isValueChar, Bool.not_eq_true', Bool.or_eq_false_iff] at h
  exact h.2

namespace Declaration

theorem within_nil (d : Declaration) (a : List Char) :
    d.within a [] = { d with before := a ++ d.before } := by
  simp [within]

theorem text_within (d : Declaration) (a b : List Char) :
    (d.within a b).text = a ++ d.text ++ b := by
  simp [within, text]

/-- A value between the key and the parenthesis that closes the declaration. -/
structure Closes (d : Declaration) : Prop where
  value : ∀ c ∈ d.value, isValueChar c = true
  after : ∃ blanks rest, d.after = blanks ++ ')' :: rest ∧ ∀ c ∈ blanks, isBlank c = true
  /-- All blanks before the value count as such, also if the value is empty. -/
  tight : Stops isBlank (d.value ++ d.after)

/-- The form of a declaration of a key. -/
structure Declares (d : Declaration) (key : List Char) : Prop extends Closes d where
  before : ∃ indent gap sep, d.before = indent ++ (opening ++ (gap ++ (key ++ sep))) ∧
    (∀ c ∈ indent, isBlank c = true) ∧ (∀ c ∈ gap, isBlank c = true) ∧
    (∀ c ∈ sep, isBlank c = true) ∧ sep ≠ []

theorem Closes.stops_after (h : d.Closes) : Stops isValueChar d.after := by
  obtain ⟨blanks, rest, heq, hblanks⟩ := h.after
  rw [heq]
  cases blanks with
  | nil => exact stops_cons (by decide)
  | cons b bs => exact stops_cons (not_isValueChar_of_isBlank (hblanks b List.mem_cons_self))

end Declaration

open Declaration

theorem valueAfterKey?_eq_some_iff :
    valueAfterKey? s = some d ↔
      d.text = s ∧ d.Closes ∧ (∀ c ∈ d.before, isBlank c = true) ∧ d.before ≠ [] := by
  unfold valueAfterKey?
  dsimp only
  constructor
  · intro h
    split at h
    · cases h
    · next hne =>
      split at h
      · next rest hrest =>
        cases h
        refine ⟨?_, ⟨fun c hc => List.mem_takeWhile_imp hc, ?_, ?_⟩,
          fun c hc => List.mem_takeWhile_imp hc, hne⟩
        · simp [Declaration.text]
        · refine ⟨((s.dropWhile isBlank).dropWhile isValueChar).takeWhile isBlank, rest, ?_,
            fun c hc => List.mem_takeWhile_imp hc⟩
          rw [← hrest, List.takeWhile_append_dropWhile]
        · simpa using stops_dropWhile isBlank s
      · cases h
  · rintro ⟨rfl, hcloses, hblank, hne⟩
    obtain ⟨blanks, rest, hafter, hblanks⟩ := hcloses.after
    have hstop : Stops isBlank (')' :: rest) := stops_cons (by decide)
    have htext : d.text = d.before ++ (d.value ++ d.after) := List.append_assoc ..
    rw [htext, takeWhile_append_stops hblank hcloses.tight,
      dropWhile_append_stops hblank hcloses.tight,
      takeWhile_append_stops hcloses.value hcloses.stops_after,
      dropWhile_append_stops hcloses.value hcloses.stops_after, if_neg hne, hafter,
      dropWhile_append_stops hblanks hstop, ← hafter]
    rfl

theorem keyAndValue?_eq_some_iff :
    keyAndValue? key s = some d ↔ d.text = s ∧ d.Closes ∧
      ∃ sep, d.before = key ++ sep ∧ (∀ c ∈ sep, isBlank c = true) ∧ sep ≠ [] := by
  simp only [keyAndValue?, Option.bind_eq_bind, Option.bind_eq_some_iff, stripPrefix?_eq_some_iff,
    valueAfterKey?_eq_some_iff, Option.pure_def, Option.some.injEq]
  constructor
  · rintro ⟨_, rfl, e, ⟨rfl, hcloses, hblank, hne⟩, rfl⟩
    rw [within_nil]
    exact ⟨by simp [Declaration.text], ⟨hcloses.value, hcloses.after, hcloses.tight⟩,
      e.before, rfl, hblank, hne⟩
  · rintro ⟨rfl, hcloses, sep, hsep, hblank, hne⟩
    refine ⟨_, ?_, ⟨sep, d.value, d.after⟩, ⟨rfl, ⟨hcloses.value, hcloses.after, hcloses.tight⟩,
      hblank, hne⟩, ?_⟩
    · simp [Declaration.text, hsep]
    · rw [within_nil]; simp only [← hsep]

/-! ### The place of the key -/

section

variable {p : List Char → Option Declaration} {gap gap' r' : List Char} {key' : List Char}

/-- What is found stands behind some of the blanks. -/
theorem exists_of_afterBlanks (h : afterBlanks p s = some d) :
    ∃ gap t e, s = gap ++ t ∧ (∀ c ∈ gap, isBlank c = true) ∧ p t = some e ∧
      d = e.within gap [] := by
  induction s generalizing d with
  | nil => exact ⟨[], [], d, rfl, by simp, h, by simp [within_nil]⟩
  | cons c r ih =>
    have hhere : p (c :: r) = some d → ∃ gap t e, c :: r = gap ++ t ∧
        (∀ c ∈ gap, isBlank c = true) ∧ p t = some e ∧ d = e.within gap [] := fun h =>
      ⟨[], c :: r, d, rfl, by simp, h, by simp [within_nil]⟩
    rw [afterBlanks] at h
    split at h
    · next hc =>
      split at h
      · next e he =>
        cases h
        obtain ⟨gap, t, e', rfl, hgap, ht, rfl⟩ := ih he
        exact ⟨c :: gap, t, e', rfl, by simpa [hc] using hgap, ht, by simp [within_nil]⟩
      · exact hhere h
    · exact hhere h

/-- Where nothing is found behind further blanks, what stands here is found. -/
theorem afterBlanks_eq_self
    (h : ∀ b t, s = b ++ t → b ≠ [] → (∀ c ∈ b, isBlank c = true) → p t = none) :
    afterBlanks p s = p s := by
  cases s with
  | nil => rfl
  | cons c r =>
    rw [afterBlanks]
    split
    · next hc =>
      split
      · next e he =>
        obtain ⟨gap, t, e', rfl, hgap, ht, rfl⟩ := exists_of_afterBlanks he
        have hnone := h (c :: gap) t rfl (by simp) (by simpa [hc] using hgap)
        rw [hnone] at ht
        cases ht
      · rfl
    · rfl

theorem afterBlanks_append (hgap : ∀ c ∈ gap, isBlank c = true) (h : afterBlanks p s = some d) :
    afterBlanks p (gap ++ s) = some (d.within gap []) := by
  induction gap with
  | nil => simpa [within_nil] using h
  | cons c gap ih =>
    rw [List.cons_append, afterBlanks, if_pos (hgap c List.mem_cons_self),
      ih fun b hb => hgap b (List.mem_cons_of_mem _ hb)]
    simp [within_nil]

/-- Blanks before a text that does not consist of blanks add to those with which it starts. -/
theorem takeWhile_blanks_append (hgap : ∀ c ∈ gap, isBlank c = true)
    (hkey : ∃ c ∈ key, isBlank c = false) :
    (gap ++ (key ++ r)).takeWhile isBlank = gap ++ key.takeWhile isBlank := by
  rw [List.takeWhile_append_of_pos hgap, List.takeWhile_append, if_neg]
  intro hlen
  obtain ⟨c, hc, hblank⟩ := hkey
  have hall := List.takeWhile_eq_self_iff.1 ((List.takeWhile_prefix isBlank).eq_of_length hlen)
  simp [hall c hc] at hblank

/-- **Behind blanks there is one place for a key,** whichever of the keys that start with the same
blanks stands there. -/
theorem gap_unique (hgap : ∀ c ∈ gap, isBlank c = true) (hgap' : ∀ c ∈ gap', isBlank c = true)
    (hkey : ∃ c ∈ key, isBlank c = false) (hkey' : ∃ c ∈ key', isBlank c = false)
    (hlead : key.takeWhile isBlank = key'.takeWhile isBlank)
    (h : gap ++ (key ++ r) = gap' ++ (key' ++ r')) : gap = gap' := by
  have := congrArg (List.takeWhile isBlank) h
  rw [takeWhile_blanks_append hgap hkey, takeWhile_blanks_append hgap' hkey', hlead] at this
  exact List.append_cancel_right this

end

/-! ### Declarations in a line -/

theorem Declaration.Declares.text_eq (h : d.Declares key) :
    ∃ indent gap sep,
      d.text = indent ++ (opening ++ (gap ++ (key ++ (sep ++ (d.value ++ d.after))))) ∧
      (∀ c ∈ indent, isBlank c = true) ∧ (∀ c ∈ gap, isBlank c = true) := by
  obtain ⟨indent, gap, sep, hbefore, hindent, hgap, -, -⟩ := h.before
  exact ⟨indent, gap, sep, by simp [Declaration.text, hbefore], hindent, hgap⟩

theorem stops_opening : Stops isBlank (opening ++ s) := stops_cons (by decide)

/-- **What is found in a line is what the line declares.** -/
theorem declaration?_eq_some_iff (hkey : ∃ c ∈ key, isBlank c = false) :
    declaration? key line = some d ↔ d.text = line ∧ d.Declares key := by
  simp only [declaration?, Option.bind_eq_bind, Option.bind_eq_some_iff, stripPrefix?_eq_some_iff,
    Option.pure_def, Option.some.injEq]
  constructor
  · rintro ⟨rest, hrest, e, he, rfl⟩
    obtain ⟨gap, t, e, rfl, hgap, ht, rfl⟩ := exists_of_afterBlanks he
    obtain ⟨rfl, hcloses, sep, hsep, hblank, hne⟩ := keyAndValue?_eq_some_iff.1 ht
    refine ⟨?_, ⟨⟨hcloses.value, ?_, ?_⟩, ?_⟩⟩
    · rw [text_within, text_within, List.append_nil, List.append_nil, List.append_assoc, ← hrest,
        List.takeWhile_append_dropWhile]
    · simpa only [within_nil] using hcloses.after
    · simpa only [within_nil] using hcloses.tight
    · refine ⟨line.takeWhile isBlank, gap, sep, ?_, fun c hc => List.mem_takeWhile_imp hc, hgap,
        hblank, hne⟩
      simp [within_nil, hsep]
  · rintro ⟨rfl, h⟩
    obtain ⟨indent, gap, sep, hbefore, hindent, hgap, hsep, hne⟩ := h.before
    have htext :
        d.text = indent ++ (opening ++ (gap ++ (key ++ (sep ++ (d.value ++ d.after))))) := by
      simp [Declaration.text, hbefore]
    refine ⟨gap ++ (key ++ (sep ++ (d.value ++ d.after))), ?_,
      { d with before := gap ++ (key ++ sep) }, ?_, ?_⟩
    · rw [htext, dropWhile_append_stops hindent stops_opening]
    · have hfound : keyAndValue? key (key ++ (sep ++ (d.value ++ d.after))) =
          some { d with before := key ++ sep } :=
        keyAndValue?_eq_some_iff.2 ⟨by simp [Declaration.text],
          ⟨h.value, h.after, h.tight⟩, sep, rfl, hsep, hne⟩
      have hself : afterBlanks (keyAndValue? key) (key ++ (sep ++ (d.value ++ d.after))) =
          some { d with before := key ++ sep } := by
        rw [afterBlanks_eq_self, hfound]
        -- further blanks before the key would be blanks of the key itself
        intro b t ht hb hblank
        cases hfind : keyAndValue? key t with
        | none => rfl
        | some e =>
          obtain ⟨rfl, -, sep', hsep', -, -⟩ := keyAndValue?_eq_some_iff.1 hfind
          rw [Declaration.text, hsep', List.append_assoc, List.append_assoc] at ht
          have hnil : ∀ c ∈ ([] : List Char), isBlank c = true := by simp
          exact absurd (gap_unique hnil hblank hkey hkey rfl ht).symm hb
      rw [afterBlanks_append hgap hself, within_nil]
    · rw [within_nil, htext, takeWhile_append_stops hindent stops_opening]
      simp [← hbefore]

/-- **A line does not declare two keys** of one length that start with the same blanks. -/
theorem Declaration.Declares.key_unique {e : Declaration} {key' : List Char}
    (hd : d.Declares key) (he : e.Declares key') (htext : d.text = e.text)
    (hkey : ∃ c ∈ key, isBlank c = false) (hkey' : ∃ c ∈ key', isBlank c = false)
    (hlead : key.takeWhile isBlank = key'.takeWhile isBlank) (hlen : key.length = key'.length) :
    key = key' := by
  obtain ⟨indent, gap, sep, hdtext, hindent, hgap⟩ := hd.text_eq
  obtain ⟨indent', gap', sep', hetext, hindent', hgap'⟩ := he.text_eq
  rw [hdtext, hetext] at htext
  have hrest := congrArg (List.dropWhile isBlank) htext
  rw [dropWhile_append_stops hindent stops_opening,
    dropWhile_append_stops hindent' stops_opening] at hrest
  have hrest := List.append_cancel_left hrest
  obtain rfl := gap_unique hgap hgap' hkey hkey' hlead hrest
  exact (List.append_inj (List.append_cancel_left hrest) hlen).1

/-- Another value in place of the declared one is declared, too. -/
theorem Declaration.Declares.withValue {v : List Char} (h : d.Declares key) (hne : v ≠ [])
    (hv : ∀ c ∈ v, isValueChar c = true) : Declares { d with value := v } key := by
  refine ⟨⟨hv, h.after, ?_⟩, h.before⟩
  cases v with
  | nil => exact absurd rfl hne
  | cons c r => exact stops_cons (not_isBlank_of_isValueChar (hv c List.mem_cons_self))

end VersionFile
end NightlyRelease
