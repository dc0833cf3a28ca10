/-
# Written versions and what reads as one

The written form of a version is canonical: blanks around it are all that a text can
have more and still read as this version.  So writing and reading undo each other, up to these
blanks, and what a run writes to the file of the published version is what the
next run reads there, if the file can be written at all (`parse_canonical`).
-/

import NightlyRelease.Proofs.FileSystem.Writing
import NightlyRelease.Proofs.Nightly.Planning
import NightlyRelease.Proofs.Text.Trimming
import NightlyRelease.Proofs.Version.Canonical

namespace NightlyRelease

/-! ### The file of the published version -/

namespace Artifacts

open NightlyRelease.Action

variable {σ : Type} {fs fs' : FileSystem} {p : Path} {v : Version}

/-- What was written is the version in the file. -/
theorem versionIn_of_writeText (h : fs.writeText p v.text = .ok fs') :
    versionIn fs' p = .ok (some v) :=
  versionIn_eq_some_iff.2 ⟨v.text, FileSystem.readText_writeText h, Version.parse_text v⟩

/-- The log line of a version that was written. -/
def writtenLine (p : Path) (v : Version) : Log.Line :=
  ⟨.info, "Wrote version " ++ v.text ++ " to " ++ p.text⟩

/-- **A version that was written is read again.** If it cannot be written, nothing happens. -/
theorem writeVersion_readVersion_apply (p : Path) (v : Version) (w : World σ) :
    (writeVersion p v >>= fun _ => readVersion p) w = match w.files.writeText p v.text with
      | .ok fs => (.ok (some v), ⟨fs, w.repository, w.log ++ [writtenLine p v]⟩)
      | .error fault => (.error (.failed (.io fault.message)), w) := by
  simp only [writeVersion, readVersion, bind_apply, writeText_apply]
  cases h : w.files.writeText p v.text with
  | error fault => rfl
  | ok fs =>
    simp only [log_apply, files_apply, ofExcept_apply, versionIn_of_writeText h, returned_ok]
    rfl

end Artifacts

namespace Version

open Text

variable {t : String} {v : Version}

/-- The written form of a version needs no trimming. -/
theorem trim_text (v : Version) : trim v.text.toList = v.text.toList :=
  parse_eq_ok_iff.1 (parse_text v)

theorem parse_eq_ok_iff_trimmed : parse t = .ok v ↔ trimmed t = v.text := by
  rw [parse_eq_ok_iff, trimmed, ← String.toList_inj, String.toList_ofList]

/-- A text reads as a version exactly if it is the written form with blanks around it. -/
theorem parse_eq_ok_iff_isFramed : parse t = .ok v ↔ IsFramed v.text.toList t.toList := by
  rw [parse_eq_ok_iff, trim_eq_iff_isFramed (trim_text v)]

/-- What makes the written form of a version canonical. -/
structure IsCanonical (v : Version) : Prop where
  /-- A text reads as the version exactly if the written form is left when it is trimmed. -/
  parse_iff : ∀ t : String, parse t = .ok v ↔ trimmed t = v.text
  parse_text : parse v.text = .ok v
  /-- What the text has more than the written form are blanks around it, and any blanks will do. -/
  parse_iff_isFramed : ∀ t : String, parse t = .ok v ↔ IsFramed v.text.toList t.toList
  /-- So two texts of the version differ in these blanks only. -/
  trimmed_eq : ∀ t₁ t₂ : String, parse t₁ = .ok v → parse t₂ = .ok v → trimmed t₁ = trimmed t₂
  /-- A file to which the version was written holds it. -/
  reread : ∀ (σ : Type) (w : World σ) (p : Path),
    (Artifacts.writeVersion p v >>= fun _ => Artifacts.readVersion p) w =
      match w.files.writeText p v.text with
      | .ok fs => (.ok (some v), ⟨fs, w.repository, w.log ++ [Artifacts.writtenLine p v]⟩)
      | .error fault => (.error (.failed (.io fault.message)), w)

/-- **Every version has one canonical text.** -/
theorem parse_canonical (v : Version) : IsCanonical v where
  parse_iff _ := parse_eq_ok_iff_trimmed
  parse_text := parse_text v
  parse_iff_isFramed _ := parse_eq_ok_iff_isFramed
  trimmed_eq _ _ h₁ h₂ := by rw [parse_eq_ok_iff_trimmed.1 h₁, parse_eq_ok_iff_trimmed.1 h₂]
  reread _ w p := Artifacts.writeVersion_readVersion_apply p v w

/-- The largest version reads, with any blanks around it.  Larger numbers do not, nor do leading
zeros, signs, suffixes, missing or further numbers, and blanks inside. -/
example : parse "\u2003 4294967295.4294967295.4294967295\r\n" =
      .ok ⟨4294967295, 4294967295, 4294967295⟩ ∧
    ["4294967296.0.0", "0.18446744073709551616.0", "01.2.3", "+1.2.3", "1.2.3-rc.1", "1.2.3+7",
      "1.2", "1.2.3.4", "1. 2.3", ""].all (fun t => !(parse t).isOk) = true := by
  decide +kernel

end Version
end NightlyRelease
