/-
# The texts that are versions

`Version.parse` takes a text apart by a grammar that knows suffixes and numbers
of 64 bits, and then refuses what is no nightly version.  What it accepts in the
end is simple: a text reads as `v` exactly if it is the written form of `v` with
blanks around it (`parse_eq_ok_iff`).  So the written form of a version reads as
this version (`parse_text`), and a text that holds anything but blanks, digits
and dots reads as none (`of_mem_of_parse`).
-/

import NightlyRelease.Proofs.Result
import NightlyRelease.Proofs.Text.Scanning
import NightlyRelease.Version.Basic

namespace NightlyRelease
namespace Version

open Text Text.Decimal

namespace Grammar

variable {s rest : List Char} {part last : Part} {n : Nat}

/-- **A number is read from its decimal text**, up to the first character that is no digit. -/
theorem number_eq_ok_iff :
    number part s = .ok (n, rest) ↔
      n < numberBound ∧ s = digits n ++ rest ∧ Stops isDigit rest := by
  constructor
  · intro h
    unfold number at h
    dsimp only at h
    split at h
    · split at h <;> cases h
    · cases h
    · next hne hzero =>
      split at h
      · next hlt =>
        cases h
        refine ⟨hlt, ?_, stops_dropWhile _ _⟩
        rw [digits_value hne (fun c hc => List.mem_takeWhile_imp hc),
          List.takeWhile_append_dropWhile]
        rintro (_ | ⟨d, r⟩) hr
        · rfl
        · exact absurd hr (hzero d r)
      · cases h
  · rintro ⟨hlt, rfl, hstop⟩
    have hdigits : ∀ c ∈ digits n, isDigit c = true := fun c hc => mem_digits hc
    unfold number
    rw [takeWhile_append_stops hdigits hstop, dropWhile_append_stops hdigits hstop]
    dsimp only
    split
    · next h => exact absurd h (digits_ne_nil n)
    · next h => cases digits_eq_zero_cons h
    · rw [value_digits, if_pos hlt]

theorem dot_eq_ok_iff : dot part s = .ok rest ↔ s = '.' :: rest := by
  cases s with
  | nil => simp [dot]
  | cons c r => by_cases h : c = '.' <;> simp [dot, h]

/-- An identifier that was read is not empty. -/
theorem identifier_ne_nil {run : List Char} (h : identifier part s = .ok (run, rest)) :
    run ≠ [] := by
  rintro rfl
  unfold identifier at h
  obtain ⟨_, hcheck, h⟩ := bind_eq_ok_iff.1 h
  rw [pure_eq_ok_iff, Prod.mk.injEq] at h
  rw [h.1] at hcheck
  cases hcheck

/-- A suffix that is empty was not there. -/
theorem suffix_eq_nil {mark : Char} {last' : Part}
    (h : suffix mark part last s = .ok ([], last', rest)) : s = rest := by
  unfold suffix at h
  split at h
  · split at h
    · obtain ⟨⟨run, r⟩, hrun, h⟩ := bind_eq_ok_iff.1 h
      rw [pure_eq_ok_iff] at h
      cases h
      exact absurd rfl (identifier_ne_nil hrun)
    · cases h; rfl
  · cases h; rfl

/-- **A text without suffixes reads as three numbers with dots between them.** -/
theorem read_eq_ok_iff {major minor patch : Nat} :
    read s = .ok ⟨major, minor, patch, [], []⟩ ↔
      (major < numberBound ∧ minor < numberBound ∧ patch < numberBound) ∧
        s = digits major ++ '.' :: (digits minor ++ '.' :: digits patch) := by
  have hdot : ∀ r, Stops isDigit ('.' :: r) := fun r => stops_cons (by decide)
  unfold read
  constructor
  · intro h
    split at h
    · cases h
    obtain ⟨⟨m₁, s₁⟩, h₁, h⟩ := bind_eq_ok_iff.1 h
    obtain ⟨s₂, h₂, h⟩ := bind_eq_ok_iff.1 h
    obtain ⟨⟨m₃, s₃⟩, h₃, h⟩ := bind_eq_ok_iff.1 h
    obtain ⟨s₄, h₄, h⟩ := bind_eq_ok_iff.1 h
    obtain ⟨⟨m₅, s₅⟩, h₅, h⟩ := bind_eq_ok_iff.1 h
    obtain ⟨⟨pre, l₆, s₆⟩, h₆, h⟩ := bind_eq_ok_iff.1 h
    obtain ⟨⟨build, l₇, s₇⟩, h₇, h⟩ := bind_eq_ok_iff.1 h
    obtain ⟨hm₁, rfl, -⟩ := number_eq_ok_iff.1 h₁
    obtain rfl := dot_eq_ok_iff.1 h₂
    obtain ⟨hm₃, rfl, -⟩ := number_eq_ok_iff.1 h₃
    obtain rfl := dot_eq_ok_iff.1 h₄
    obtain ⟨hm₅, rfl, -⟩ := number_eq_ok_iff.1 h₅
    cases s₇ with
    | nil =>
      cases h
      obtain rfl := suffix_eq_nil h₆
      obtain rfl := suffix_eq_nil h₇
      exact ⟨⟨hm₁, hm₃, hm₅⟩, by rw [List.append_nil]⟩
    | cons c r => cases h
  · rintro ⟨⟨h₁, h₃, h₅⟩, rfl⟩
    rw [if_neg (by simp [digits_ne_nil])]
    refine bind_eq_ok_iff.2 ⟨_, number_eq_ok_iff.2 ⟨h₁, rfl, hdot _⟩, ?_⟩
    refine bind_eq_ok_iff.2 ⟨_, dot_eq_ok_iff.2 rfl, ?_⟩
    refine bind_eq_ok_iff.2 ⟨_, number_eq_ok_iff.2 ⟨h₃, rfl, hdot _⟩, ?_⟩
    refine bind_eq_ok_iff.2 ⟨_, dot_eq_ok_iff.2 rfl, ?_⟩
    refine bind_eq_ok_iff.2 ⟨_, number_eq_ok_iff.2 ⟨h₅, (List.append_nil _).symm, stops_nil⟩, ?_⟩
    rfl

end Grammar

variable {v : Version} {t : String}

theorem toList_text :
    v.text.toList = digits v.major.toNat ++ '.' :: (digits v.minor.toNat ++ '.' ::
      digits v.patch.toNat) := by
  simp [text, Text.Decimal.text]

theorem component_eq_ok_iff {name : String} {n : Nat} {u : UInt32} :
    component name n = .ok u ↔ n = u.toNat := by
  unfold component
  split
  · next h =>
    rw [Except.ok.injEq, ← UInt32.toNat_inj, UInt32.toNat_ofNat_of_lt' h]
  · next h =>
    refine iff_of_false (by simp) fun hn => h ?_
    rw [hn]
    exact u.toNat_lt_size

/-- **A text reads as a version exactly if it is its written form, with blanks around it.** -/
theorem parse_eq_ok_iff : parse t = .ok v ↔ trim t.toList = v.text.toList := by
  have hbound : ∀ u : UInt32, u.toNat < Grammar.numberBound := fun u =>
    Nat.lt_trans u.toNat_lt_size (by decide)
  rw [toList_text]
  unfold parse
  constructor
  · intro h
    cases hread : Grammar.read (trim t.toList) with
    | error fault => rw [hread] at h; cases h
    | ok r =>
      simp only [hread] at h
      split at h
      · cases h
      · next hsuffix =>
        obtain ⟨major, h₁, h⟩ := bind_eq_ok_iff.1 h
        obtain ⟨minor, h₂, h⟩ := bind_eq_ok_iff.1 h
        obtain ⟨patch, h₃, h⟩ := bind_eq_ok_iff.1 h
        cases h
        simp only [component_eq_ok_iff] at h₁ h₂ h₃
        simp only [not_or, ne_eq, not_not] at hsuffix
        obtain ⟨_, _, _, pre, build⟩ := r
        obtain ⟨rfl, rfl⟩ := hsuffix
        simp only at h₁ h₂ h₃
        subst h₁ h₂ h₃
        exact (Grammar.read_eq_ok_iff.1 hread).2
  · intro h
    have hread := Grammar.read_eq_ok_iff.2 ⟨⟨hbound v.major, hbound v.minor, hbound v.patch⟩, h⟩
    simp only [hread, ne_eq, not_true_eq_false, or_self, if_false]
    refine bind_eq_ok_iff.2 ⟨_, component_eq_ok_iff.2 rfl, ?_⟩
    refine bind_eq_ok_iff.2 ⟨_, component_eq_ok_iff.2 rfl, ?_⟩
    refine bind_eq_ok_iff.2 ⟨_, component_eq_ok_iff.2 rfl, rfl⟩

theorem of_mem_text {c : Char} (h : c ∈ v.text.toList) : isDigit c = true ∨ c = '.' := by
  rw [toList_text] at h
  simp only [List.mem_append, List.mem_cons] at h
  rcases h with h | rfl | h | rfl | h
  · exact .inl (mem_digits h)
  · exact .inr rfl
  · exact .inl (mem_digits h)
  · exact .inr rfl
  · exact .inl (mem_digits h)

/-- **Reading the written form of a version gives the version.** -/
theorem parse_text (v : Version) : parse v.text = .ok v := by
  refine parse_eq_ok_iff.2 (trim_eq_self fun c hc => ?_)
  rcases of_mem_text hc with h | rfl
  · exact isBlank_of_isDigit h
  · decide

/-- A text that reads as a version holds blanks, digits and dots only. -/
theorem of_mem_of_parse {c : Char} (h : parse t = .ok v) (hc : c ∈ t.toList) :
    isBlank c = true ∨ isDigit c = true ∨ c = '.' := by
  cases hblank : isBlank c with
  | true => exact .inl rfl
  | false =>
    have := mem_trim hc hblank
    rw [parse_eq_ok_iff.1 h] at this
    exact .inr (of_mem_text this)

end Version
end NightlyRelease
