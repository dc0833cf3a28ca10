/-
# Bumping a version file again and again

A bump writes a text, and the next bump reads this text with the same prefix.  The
first bump takes the patch value away as somebody has written it, with its plus sign
and its leading zeros; from then on the value is the decimal text of the number.  So
after `n` bumps the file is `raised n`: the text that it was, with another value in
place of the first one (`bumpedTimes_eq`).

A run bumps by byte offsets, and the span of the value moves with every bump that
changes the number of its digits.  What is read again is the file that the bump by
pieces has left (`Located.bumpedTimes_eq`), so every span that is ever cut out lies in
its text and cuts no character.

The value stands in one line.  All other lines stay as they are, with their line
endings, and so does the text around the value, until the patch number is the
largest; then a bump is refused (`bumps_count_up`).
-/

import NightlyRelease.Proofs.VersionFile.Spans

namespace NightlyRelease
namespace VersionFile

open NightlyRelease.Action Text

/-- The version file with a patch number that is higher by `n`, written in decimal digits; the
first value is left as somebody has written it. -/
def raised (file : VersionFile) : Nat → VersionFile
  | 0 => file
  | n + 1 => { file with
      patchValue := Decimal.digits (file.version.patch.toNat + (n + 1))
      version := file.version.plus (n + 1) }

/-- The file after so many bumps, each of which is read again before the next one. -/
def bumpedTimes (keyPrefix : String) (file : VersionFile) : Nat → Except Error VersionFile
  | 0 => .ok file
  | n + 1 => do
    let bumped ← (← bumpedTimes keyPrefix file n).bumpPatch
    parse bumped.text keyPrefix

/-- The file by offsets after so many bumps, each of which is read again before the next one. -/
def Located.bumpedTimes (keyPrefix : String) (file : Located) : Nat → Except Halt Located
  | 0 => .ok file
  | n + 1 => do
    let bumped ← (← bumpedTimes keyPrefix file n).bumpPatch
    parse bumped.text keyPrefix

variable {file : VersionFile} {keyPrefix text : String} {n : Nat}

@[simp] theorem version_raised : (file.raised n).version = file.version.plus n := by
  cases n <;> simp [raised]

@[simp] theorem before_raised : (file.raised n).before = file.before := by
  cases n <;> rfl

@[simp] theorem after_raised : (file.raised n).after = file.after := by
  cases n <;> rfl

theorem raised_succ (h : file.version.patch.toNat + (n + 1) < UInt32.size) :
    file.raised (n + 1) = { file.raised n with
      patchValue := Decimal.digits (file.version.plus (n + 1)).patch.toNat
      version := file.version.plus (n + 1) } := by
  rw [raised, Version.toNat_patch_plus h]
  cases n <;> rfl

/-- Each bump leads to the next file. -/
theorem bumpPatch_raised (h : file.version.patch.toNat + (n + 1) < UInt32.size) :
    (file.raised n).bumpPatch = .ok ⟨(file.raised (n + 1)).text, file.version.plus n,
      file.version.plus (n + 1)⟩ := by
  rw [bumpPatch_eq_ok_iff, version_raised, before_raised, after_raised,
    Version.toNat_patch_plus h]
  exact ⟨Version.bumpPatch_plus h, rfl, rfl⟩

/-- A bump is refused exactly for the largest patch number. -/
theorem bumpPatch_eq_error_iff {e : Error} :
    file.bumpPatch = .error e ↔ file.version.patch.toNat = 4294967295 ∧
      e = .version "patch number 4294967295 cannot be incremented" := by
  rw [← Version.bumpPatch_eq_error_iff, bumpPatch]
  cases file.version.bumpPatch with
  | error e' => rw [error_bind, Except.error.injEq, Except.error.injEq]
  | ok v => constructor <;> rintro ⟨⟩

theorem bumpPatch_of_largest (h : file.version.patch.toNat + 1 = UInt32.size) :
    ∃ reason, file.bumpPatch = .error (.version reason) :=
  ⟨_, bumpPatch_eq_error_iff.2 ⟨Nat.succ.inj h, rfl⟩⟩

/-- **After `n` bumps the file is raised by `n`,** as long as there is room for the patch number. -/
theorem bumpedTimes_eq (h : parse text keyPrefix = .ok file)
    (hroom : file.version.patch.toNat + n < UInt32.size) :
    bumpedTimes keyPrefix file n = .ok (file.raised n) ∧
      parse (file.raised n).text keyPrefix = .ok (file.raised n) := by
  -- the text that bump `n` has written is the one that bump `n + 1` has read
  induction n with
  | zero => exact ⟨rfl, by rwa [raised, text_of_parse h]⟩
  | succ n ih =>
    obtain ⟨htimes, hparse⟩ := ih (by omega)
    have hnext := parse_bumped hparse (bumpPatch_raised hroom)
    rw [← raised_succ hroom] at hnext
    refine ⟨?_, hnext⟩
    rw [bumpedTimes, htimes, ok_bind, bumpPatch_raised hroom, ok_bind, hnext]

/-- **Bumps by offsets go as bumps by pieces go.** -/
theorem Located.bumpedTimes_eq : Located.bumpedTimes keyPrefix file.located n =
    returned ((VersionFile.bumpedTimes keyPrefix file n).map located) := by
  induction n with
  | zero => rfl
  | succ n ih =>
    rw [Located.bumpedTimes, VersionFile.bumpedTimes, ih]
    cases VersionFile.bumpedTimes keyPrefix file n with
    | error e => rfl
    | ok next =>
      simp only [Except.map, returned_ok, ok_bind, bumpPatch_eq]
      cases next.bumpPatch with
      | error e => rfl
      | ok bumped => exact parse_eq

/-- A bump by offsets is refused exactly for the largest patch number, and never broken off. -/
theorem Located.bumpPatch_eq_error_iff {h : Halt} :
    file.located.bumpPatch = .error h ↔ file.version.patch.toNat = 4294967295 ∧
      h = .failed (.version "patch number 4294967295 cannot be incremented") := by
  rw [bumpPatch_eq]
  cases hbump : file.bumpPatch with
  | ok bumped =>
    refine iff_of_false nofun fun hlargest => ?_
    rw [VersionFile.bumpPatch_eq_error_iff.2 ⟨hlargest.1, rfl⟩] at hbump
    cases hbump
  | error e =>
    obtain ⟨hlargest, rfl⟩ := VersionFile.bumpPatch_eq_error_iff.1 hbump
    rw [returned_error, Except.error.injEq, eq_comm, and_iff_right hlargest]

/-- The declaration with another value. -/
def Declaration.withValue (d : Declaration) (value : List Char) : Declaration := { d with value }

/-- What a version file has become after `n` bumps: its span fits its text, the lines around the one
that declares the patch number are the same, and so is the text around the value in this line. -/
structure CountedTo (keyPrefix : String) (file : Located) (before : List (List Char))
    (d : Declaration) (after : List (List Char)) (n : Nat) (next : Located) : Prop where
  bumped : Located.bumpedTimes keyPrefix file n = .ok next
  fits : next.patchSpan.Fits next.text
  major_eq : next.version.major = file.version.major
  minor_eq : next.version.minor = file.version.minor
  patch_eq : next.version.patch.toNat = file.version.patch.toNat + n
  text_eq : next.text.toList = before.flatten ++
    (d.withValue (Decimal.digits (file.version.patch.toNat + n))).text ++ after.flatten
  lines_eq : lines next.text.toList = before ++
    (d.withValue (Decimal.digits (file.version.patch.toNat + n))).text :: after

/-- **Version files count up.** A version file that has been read keeps its text, and the span of
its patch value fits this text. The text has one line that declares the patch number, with the
value at the span. Any number of bumps, each of which is read again, goes through as long as there
is room for the patch number; they raise it by their number, and the text becomes the one with the
new number in place of the first value, while all lines but this one stay as they are. A bump is
refused exactly for the largest patch number, and never broken off. -/
theorem bumps_count_up {file : Located} (h : Located.parse text keyPrefix = .ok file) :
    file.text = text ∧ file.patchSpan.Fits text ∧
    (∃ before d after, lines text.toList = before ++ d.text :: after ∧
      d.Declares (Field.key keyPrefix .patch).toList ∧
      file.patchSpan = d.span (byteCount before.flatten) ∧
      ∀ n, 1 ≤ n → file.version.patch.toNat + n ≤ 4294967295 →
        ∃ next, CountedTo keyPrefix file before d after n next) ∧
    ∀ e, file.bumpPatch = .error e ↔ file.version.patch.toNat = 4294967295 ∧
      e = .failed (.version "patch number 4294967295 cannot be incremented") := by
  obtain ⟨pieces, hpieces, rfl⟩ := Located.parse_eq_ok_iff.1 h
  have hkey := Field.patch.exists_not_isBlank keyPrefix
  obtain ⟨-, hpatch⟩ := parse_eq_ok_iff.1 hpieces
  obtain ⟨before, line, after, d, hls, -, hd, hparts⟩ := declarations_eq_singleton_iff.1 hpatch
  obtain ⟨hbefore, -, hafter⟩ := Declaration.mk.inj hparts
  obtain ⟨rfl, hdeclares⟩ := (declaration?_eq_some_iff hkey).1 hd
  have htext : pieces.located.text = text := text_of_parse hpieces
  have hspan : pieces.located.patchSpan = d.span (byteCount before.flatten) := by
    rw [located, ← hparts, span_within, Nat.zero_add, List.nil_append]
  refine ⟨htext, htext ▸ fits_located, ⟨before, d, after, hls, hdeclares, hspan,
    fun n hn hroom => ?_⟩, fun e => Located.bumpPatch_eq_error_iff⟩
  obtain ⟨m, rfl⟩ := Nat.exists_eq_succ_of_ne_zero (Nat.one_le_iff_ne_zero.1 hn)
  have hsize : pieces.version.patch.toNat + (m + 1) < UInt32.size := Nat.lt_succ_of_le hroom
  have hnext : (pieces.raised (m + 1)).located.text.toList = before.flatten ++
      (d.withValue (Decimal.digits (pieces.version.patch.toNat + (m + 1)))).text ++
        after.flatten := by
    rw [text_located, VersionFile.text, String.toList_ofList, before_raised, after_raised,
      ← hbefore, ← hafter]
    simp [raised, Declaration.withValue, Declaration.text]
  have hdigits : '\n' ∉ Decimal.digits (pieces.version.patch.toNat + (m + 1)) := fun hmem =>
    absurd (Decimal.mem_digits hmem) (by decide)
  refine ⟨(pieces.raised (m + 1)).located, ?_, fits_located, ?_, ?_, ?_, hnext, ?_⟩
  · rw [Located.bumpedTimes_eq, (bumpedTimes_eq hpieces hsize).1]
    rfl
  · rw [version_located, version_raised]
    rfl
  · rw [version_located, version_raised]
    rfl
  · rw [version_located, version_raised, Version.toNat_patch_plus hsize]
    rfl
  · rw [hnext]
    have hlines := lines_withValue hkey hd (hls ▸ areLines_lines _) hdigits
    exact hlines

namespace Sample

/-- A version file with both kinds of line endings, whose patch number has a sign and a zero. -/
def padded : VersionFile where
  before := "# für alle\r\nset(LIB_MAJOR 1)\r\n  set( LIB_MINOR 2 )\nset(LIB_PATCH ".toList
  patchValue := "+098".toList
  after := ") # é".toList
  version := ⟨1, 2, 98⟩

end Sample

/-- Two bumps take the patch number of the sample to three digits. -/
theorem bumps_count_up_sample :
    Located.parse Sample.padded.text "LIB" = .ok Sample.padded.located ∧
    ∃ before d after next, lines Sample.padded.text.toList = before ++ d.text :: after ∧
      Sample.padded.located.patchSpan = ⟨66, 70⟩ ∧
      CountedTo "LIB" Sample.padded.located before d after 2 next ∧
      next.text =
        "# für alle\r\nset(LIB_MAJOR 1)\r\n  set( LIB_MINOR 2 )\nset(LIB_PATCH 100) # é" := by
  have hpieces : parse Sample.padded.text "LIB" = .ok Sample.padded :=
    toOption_eq_some_iff.1 (by decide +kernel)
  have hparse := Located.parse_eq_ok_iff.2 ⟨_, hpieces, rfl⟩
  obtain ⟨-, -, ⟨before, d, after, hls, -, -, hcount⟩, -⟩ := bumps_count_up hparse
  obtain ⟨next, hnext⟩ := hcount 2 (by decide) (by decide)
  refine ⟨hparse, before, d, after, next, hls, by decide +kernel, hnext, ?_⟩
  have hbumped := hnext.bumped
  rw [Located.bumpedTimes_eq, (bumpedTimes_eq hpieces (by decide)).1] at hbumped
  cases hbumped
  decide +kernel

end VersionFile
end NightlyRelease
